import Mathlib.Algebra.BigOperators.Group.List.Basic
import Mathlib.Algebra.Group.Prod
import C4Gateway.Lib.Run
import C4Gateway.Proxy.ResponsesRecord
import C4Gateway.Proxy.RequestFields

/-! The relay of a WebSocket session.  Three loops run at once: one passes on the frames of the
client, one those of the upstream, and one pings the upstream.  The first to stop cancels the
others, and when the reader of the upstream has stopped the session is classified and its usage
recorded. -/

namespace C4Gateway.Proxy

open List JsonText

/-! ### Image calls -/

namespace Keys

def output := "output".toList
def result := "result".toList
def name := "name".toList
def namespaceKey := "namespace".toList
def id := "id".toList

end Keys

/-- A tool or an output item, with the values of the keys that were looked at. -/
structure ToolView where
  raw : List Char
  type : List Char := []
  name : List Char := []
  nameSpace : List Char := []
  result : List Char := []
  id : List Char := []

/-- The value of one member; of the values that are no strings only that of `result` is kept. -/
def ToolView.take (tv : ToolView) (k value : List Char) : ToolView :=
  if value.head? = some '"' then
    let val := decodeUnicodeEscapes value.tail.dropLast
    if k = Keys.type then { tv with type := val }
    else if k = Keys.name then { tv with name := val }
    else if k = Keys.namespaceKey then { tv with nameSpace := val }
    else if k = Keys.id then { tv with id := val }
    else if k = Keys.result then { tv with result := val }
    else tv
  else if k = Keys.result then { tv with result := value }
  else tv

def skipComma (body : List Char) : List Char :=
  match skipSpace body with
  | ',' :: rest => skipSpace rest
  | rest => rest

theorem skipComma_length (body : List Char) : (skipComma body).length ≤ body.length := by
  have hspace := skipSpace_length body
  unfold skipComma
  split
  · next rest heq =>
    rw [heq, List.length_cons] at hspace
    have := skipSpace_length rest
    omega
  · exact hspace

def extractMembers (tv : ToolView) (body : List Char) : ToolView :=
  match body with
  | [] => tv
  | c :: rest =>
    if c = '"' then
      match _hmember : scanMember (c :: rest) with
      | none => tv
      | some (k, value, stop) => extractMembers (tv.take k value) (skipComma stop)
    else tv
termination_by body.length
decreasing_by
  have := scanMember_length _hmember
  have := skipComma_length stop
  omega

def extractKeys (elem : List Char) : ToolView :=
  match skipSpace elem with
  | '{' :: rest => extractMembers { raw := elem } (skipSpace rest)
  | _ => { raw := elem }

def toolView (elem : List Char) : ToolView :=
  if contains elem "image".toList || contains elem ['\\', 'u'] then extractKeys elem
  else { raw := elem }

/-- The elements of an array, up to one that cannot be skipped. -/
def scanElements (body : List Char) : List ToolView :=
  match body with
  | [] => []
  | c :: rest =>
    if c = ']' then []
    else
      match _hvalue : skipValue (c :: rest) with
      | none => []
      | some stop =>
        toolView (between (c :: rest) stop) ::
          match _hnext : skipSpace stop with
          | [] => []
          | next :: more => if next = ']' then [] else scanElements (skipSpace more)
termination_by body.length
decreasing_by
  have hstop := skipValue_length _hvalue
  have hspace := skipSpace_length stop
  rw [_hnext, length_cons] at hspace
  have := skipSpace_length more
  omega

def scanTools (raw : List Char) : List ToolView :=
  match skipSpace raw with
  | '[' :: rest => scanElements (skipSpace rest)
  | _ => []

def imageResultNonEmpty (r : List Char) : Bool :=
  r ≠ [] && r ≠ ['[', ']'] && r ≠ "null".toList

def imageGenerationCall := "image_generation_call".toList

/-- The count so far and the ids that were counted, of which sixteen are kept. -/
def countImage (counted : Int × List (List Char)) (tv : ToolView) : Int × List (List Char) :=
  if tv.type = imageGenerationCall ∧ imageResultNonEmpty tv.result then
    if tv.id = [] then (counted.1 + 1, counted.2)
    else if tv.id ∈ counted.2 then counted
    else (counted.1 + 1, if counted.2.length < 16 then counted.2 ++ [tv.id] else counted.2)
  else counted

def countImageItems (raw : List Char) : Int :=
  if raw.head? = some '[' then ((scanTools raw).foldl countImage (0, [])).1 else 0

def respImageCountCompleted (data : List Char) : Int :=
  match (scanKeyValue data Keys.response).bind (scanKeyValue · Keys.output) with
  | none => 0
  | some raw => countImageItems raw

/-! ### The session -/

inductive CredentialType where
  | apiKey
  | responsesSpecial
  | codexOAuth
  | codexPAT
  deriving DecidableEq, Repr

def isCodexCredentialType (t : CredentialType) : Bool := t = .codexOAuth || t = .codexPAT

/-- What a turn needs of the selected account. -/
structure WsSelection where
  model : List Char
  credentialType : CredentialType
  stripImageTools : Bool := false

def respImageDetectOn (sel : WsSelection) : Bool :=
  !sel.stripImageTools && sel.credentialType ≠ .apiKey

def sniffResponsesCompleted (frame : List Char) : Option UsageTuple :=
  if contains frame completedPattern || isResponsesCompletedType frame then
    responsesStreamUsage frame
  else none

/-- A close frame with its code, or another failure. -/
inductive WsError where
  | close (code : Nat)
  | other (text : String)
  deriving DecidableEq, Repr

def isNormalWSCloseCode (code : Nat) : Bool := code = 1000 || code = 1001

/-- What ended a session. -/
inductive RelayEnd where
  | upstreamClosed
  | clientAbort
  | upstreamError
  deriving DecidableEq, Repr

/-- How a session ended.  A normal close of the upstream comes before everything else. -/
def relayClassify (upClose : Option Nat) (upErr clientErr pingErr : Option WsError) :
    RelayEnd × Option WsError :=
  if upClose.any isNormalWSCloseCode then (.upstreamClosed, none)
  else if clientErr.isSome then (.clientAbort, clientErr)
  else (.upstreamError, (upErr.or pingErr).or ((upClose.map WsError.close).or
    (some (.other "upstream websocket closed without a close frame"))))

/-- A frame of the client: a JSON text, or one that is none. -/
inductive Payload where
  | json (data : Data)
  | raw (text : List Char)

/-- A frame that the reader of the upstream has read; a hook that panics comes before the usage is
looked for. -/
structure ReadFrame where
  text : List Char
  sniffed : Bool

structure RelayLog where
  ending : RelayEnd
  errorType : ErrorType
  usage : UsageTuple

/-- The loops that still run, what they have recorded, and the frames that have passed. -/
structure Relay where
  sel : WsSelection
  clientLoop : Bool := true
  upLoop : Bool := true
  heartbeat : Bool := true
  cancelled : Bool := false
  ended : Bool := false
  usage : UsageTuple := {}
  upClose : Option Nat := none
  upErr : Option WsError := none
  clientErr : Option WsError := none
  pingErr : Option WsError := none
  read : List ReadFrame := []
  sent : List Payload := []
  log : Option RelayLog := none

/-- What happens to one of the loops, with what the library calls in it return, and the end of the
request's context.  `finish` is the rest of the function, after the loops. -/
inductive RelayOp where
  | clientFrame (frame : Payload) (writeErr : Option WsError)
  | clientReadErr (err : WsError)
  | clientPanic (value : String)
  | upFrame (text : List Char) (hookPanic : Option String) (writeErr : Option WsError)
  | upReadErr (err : WsError)
  | upPanic (value : String)
  | pingErr (err : WsError)
  | heartbeatPanic (value : String)
  | heartbeatDone
  | cancel
  | finish

def panicErr (value : String) : WsError := .other ("ws relay panic: " ++ value)

namespace Relay

variable (s : Relay)

/-- The first error stays, and one that follows the cancellation is not recorded. -/
def setErr (slot : Option WsError) (err : WsError) : Option WsError :=
  if s.cancelled then slot else slot.or (some err)

def exit : Relay := { s with ended := true, cancelled := true }

/-- `up.Read` returned an error. -/
def upStop : WsError → Relay
  | .close code => exit { s with upLoop := false, upClose := s.upClose.or (some code) }
  | .other text => exit { s with upLoop := false, upErr := s.setErr s.upErr (.other text) }

/-- The usage of a frame replaces what was there. -/
def sniff (text : List Char) : UsageTuple :=
  match sniffResponsesCompleted text with
  | none => s.usage
  | some u =>
    { it := u.it, ot := u.ot, tt := u.tt, cr := u.cr, cc := u.cc
      calls := if respImageDetectOn s.sel then respImageCountCompleted text else s.usage.calls }

/-- A frame of the upstream: the hook reads it first, then it is written to the client. -/
def upFrameStep (text : List Char) (hookPanic : Option String) (writeErr : Option WsError) :
    Relay :=
  match hookPanic with
  | some value =>
    exit { s with
      read := s.read ++ [⟨text, false⟩], upLoop := false
      clientErr := s.clientErr.or (some (panicErr value)) }
  | none =>
    let s' : Relay := { s with read := s.read ++ [⟨text, true⟩], usage := s.sniff text }
    match writeErr with
    | none => s'
    | some err => exit { s' with upLoop := false, clientErr := s.setErr s.clientErr err }

def clientFrameStep (frame : Payload) : Option WsError → Relay
  | none => { s with sent := s.sent ++ [frame] }
  | some err => exit { s with clientLoop := false, upErr := s.setErr s.upErr err }

def finishLog : RelayLog :=
  let ending := (relayClassify s.upClose s.upErr s.clientErr s.pingErr).1
  { ending
    errorType := if ending = .upstreamClosed then .none else .abort
    usage := s.usage }

def step (s : Relay) : RelayOp → Relay
  | .clientFrame frame writeErr => if s.clientLoop then s.clientFrameStep frame writeErr else s
  | .clientReadErr err =>
    if s.clientLoop then
      exit { s with clientLoop := false, clientErr := s.setErr s.clientErr err }
    else s
  | .clientPanic value =>
    if s.clientLoop then
      exit { s with clientLoop := false, upErr := s.upErr.or (some (panicErr value)) }
    else s
  | .upFrame text hookPanic writeErr =>
    if s.upLoop then s.upFrameStep text hookPanic writeErr else s
  | .upReadErr err => if s.upLoop then s.upStop err else s
  | .upPanic value =>
    if s.upLoop then
      exit { s with upLoop := false, clientErr := s.clientErr.or (some (panicErr value)) }
    else s
  | .pingErr err =>
    if s.heartbeat then
      exit { s with heartbeat := false, pingErr := s.setErr s.pingErr err }
    else s
  | .heartbeatPanic value =>
    if s.heartbeat then
      exit { s with heartbeat := false, pingErr := s.pingErr.or (some (panicErr value)) }
    else s
  | .heartbeatDone => if s.heartbeat && s.cancelled then { s with heartbeat := false } else s
  | .cancel => { s with cancelled := true }
  | .finish =>
    if s.ended && !s.upLoop && s.log.isNone then { s with log := some s.finishLog } else s

def start (sel : WsSelection) (first : Payload) : Relay := { sel, sent := [first] }

def run (sel : WsSelection) (first : Payload) (ops : List RelayOp) : Relay :=
  ops.foldl step (start sel first)

end Relay

/-! ### What is recorded -/

/-- Input, output, total, cache reads, cache creation and image calls. -/
abbrev Counts := Int × Int × Int × Int × Int × Int

def UsageTuple.counts (u : UsageTuple) : Counts := (u.it, u.ot, u.tt, u.cr, u.cc, u.calls)

/-- The usage of a completed response, with its image calls if they are detected. -/
def frameCounts (sel : WsSelection) (text : List Char) : Option Counts :=
  (sniffResponsesCompleted text).map fun u =>
    (u.it, u.ot, u.tt, u.cr, u.cc,
      if respImageDetectOn sel then respImageCountCompleted text else 0)

/-- The usage of every completed response among the frames. -/
def completions (sel : WsSelection) (frames : List ReadFrame) : List Counts :=
  frames.filterMap fun frame => frameCounts sel frame.text

/-- The completed responses but the last one, and one whose hook panicked. -/
def overwritten (sel : WsSelection) (frames : List ReadFrame) : List Counts :=
  (completions sel (frames.filter (·.sniffed))).dropLast ++
    completions sel (frames.filter (!·.sniffed))

section
variable {M : Type} [AddCommMonoid M]

theorem sum_dropLast_add_getLast (l : List M) : l.getLast?.getD 0 + l.dropLast.sum = l.sum := by
  rcases eq_nil_or_concat l with rfl | ⟨init, last, rfl⟩
  · simp
  · simp [add_comm]

theorem sum_filterMap_partition {α : Type} (f : α → Option M) (p : α → Bool) (l : List α) :
    ((l.filter p).filterMap f).sum + ((l.filter (!p ·)).filterMap f).sum =
      (l.filterMap f).sum := by
  induction l with
  | nil => simp
  | cons a l ih =>
    cases hf : f a with
    | none => cases hp : p a <;> simp [hf, hp, ih]
    | some m =>
      cases hp : p a
      · simp only [filter_cons, hp, Bool.not_false, if_true,
          filterMap_cons, hf, sum_cons]
        rw [← ih]
        exact add_left_comm _ _ _
      · simp only [filter_cons, hp, Bool.not_true, if_true,
          filterMap_cons, hf, sum_cons]
        rw [← ih]
        exact add_assoc _ _ _

end

/-- What is kept and what is overwritten is everything. -/
theorem sum_completions (sel : WsSelection) (frames : List ReadFrame) :
    (completions sel (frames.filter (·.sniffed))).getLast?.getD 0 +
      (overwritten sel frames).sum = (completions sel frames).sum := by
  rw [overwritten, sum_append, ← add_assoc, sum_dropLast_add_getLast]
  exact sum_filterMap_partition _ _ _

namespace Relay

/-- What a step does to the usage, the frames that were read and the log. -/
inductive Effect (s t : Relay) : Prop where
  | keeps (usage : t.usage = s.usage) (read : t.read = s.read) (log : t.log = s.log)
      (up : t.upLoop = true → s.upLoop = true)
  | reads (text : List Char) (up : s.upLoop = true) (usage : t.usage = s.sniff text)
      (read : t.read = s.read ++ [⟨text, true⟩]) (log : t.log = s.log)
  | panics (text : List Char) (up : s.upLoop = true) (usage : t.usage = s.usage)
      (read : t.read = s.read ++ [⟨text, false⟩]) (log : t.log = s.log)
  | ends (up : s.upLoop = false) (up' : t.upLoop = false) (usage : t.usage = s.usage)
      (read : t.read = s.read) (log : t.log = some s.finishLog)

theorem effect_upFrameStep {s : Relay} (hup : s.upLoop = true) (text : List Char)
    (hookPanic : Option String) (writeErr : Option WsError) :
    Effect s (s.upFrameStep text hookPanic writeErr) := by
  cases hookPanic with
  | some value => exact .panics text hup rfl rfl rfl
  | none =>
    cases writeErr with
    | none | some err => exact .reads text hup rfl rfl rfl

theorem effect_step (s : Relay) (op : RelayOp) :
    (s.step op).sel = s.sel ∧ Effect s (s.step op) := by
  -- an event of a loop that has stopped does nothing
  have hif {b : Bool} {t : Relay} (h : b = true → t.sel = s.sel ∧ Effect s t) :
      (if b then t else s).sel = s.sel ∧ Effect s (if b then t else s) := by
    cases b with
    | true => exact h rfl
    | false => exact ⟨rfl, .keeps rfl rfl rfl id⟩
  cases op with
  | clientFrame frame writeErr =>
    refine hif fun _ => ?_
    cases writeErr with
    | none | some err => exact ⟨rfl, .keeps rfl rfl rfl id⟩
  | upFrame text hookPanic writeErr =>
    refine hif fun hup => ⟨?_, effect_upFrameStep hup text hookPanic writeErr⟩
    cases hookPanic with
    | some value => rfl
    | none => cases writeErr <;> rfl
  | upReadErr err =>
    refine hif fun _ => ?_
    cases err with
    | close code | other text =>
      exact ⟨rfl, .keeps rfl rfl rfl fun h => absurd h (by simp [upStop, exit])⟩
  | upPanic value =>
    exact hif fun _ => ⟨rfl, .keeps rfl rfl rfl fun h => absurd h (by simp [exit])⟩
  | clientReadErr _ | clientPanic _ | pingErr _ | heartbeatPanic _ | heartbeatDone =>
    exact hif fun _ => ⟨rfl, .keeps rfl rfl rfl id⟩
  | cancel => exact ⟨rfl, .keeps rfl rfl rfl id⟩
  | finish =>
    refine hif fun hfinish => ?_
    have hup : s.upLoop = false := by simp_all
    exact ⟨rfl, .ends hup hup rfl rfl rfl⟩

variable {s : Relay}

/-- The usage is that of the last completed response, and the log has it. -/
structure Sniffed (s : Relay) : Prop where
  usage : s.usage.counts = (completions s.sel (s.read.filter (·.sniffed))).getLast?.getD 0
  calls : respImageDetectOn s.sel = false → s.usage.calls = 0
  log : ∀ log, s.log = some log → s.upLoop = false ∧ log.usage = s.usage

variable (sel : WsSelection) (first : Payload) (ops : List RelayOp)

theorem completions_concat (frames : List ReadFrame) (text : List Char) :
    (completions sel (frames ++ [⟨text, true⟩])).getLast?.getD 0 =
      (frameCounts sel text).getD ((completions sel frames).getLast?.getD 0) := by
  rw [completions]
  cases h : frameCounts sel text with
  | none => simp [h, completions]
  | some c => simp [h]

theorem counts_sniff (h : Sniffed s) (text : List Char) :
    (s.sniff text).counts = (frameCounts s.sel text).getD s.usage.counts ∧
      (respImageDetectOn s.sel = false → (s.sniff text).calls = 0) := by
  unfold sniff frameCounts
  cases sniffResponsesCompleted text with
  | none => exact ⟨rfl, h.calls⟩
  | some u =>
    cases hdetect : respImageDetectOn s.sel with
    | true => exact ⟨rfl, fun hfalse => absurd hfalse (by simp)⟩
    | false => simp [UsageTuple.counts, h.calls hdetect]

theorem Sniffed.step (h : Sniffed s) (op : RelayOp) : Sniffed (s.step op) := by
  obtain ⟨hsel, heffect⟩ := effect_step s op
  have hno : s.upLoop = true → s.log = none := by
    intro hup
    refine Option.eq_none_iff_forall_ne_some.mpr fun log hlog => ?_
    simp [(h.log log hlog).1] at hup
  cases heffect with
  | keeps usage read log up =>
    refine ⟨by rw [usage, read, hsel]; exact h.usage, by rw [usage, hsel]; exact h.calls, ?_⟩
    intro l hl
    obtain ⟨hup, hlog⟩ := h.log l (log ▸ hl)
    refine ⟨?_, by rw [usage]; exact hlog⟩
    exact Bool.eq_false_iff.mpr fun hup' => absurd (up hup') (by simp [hup])
  | reads text up usage read log =>
    have hcounts := counts_sniff h text
    refine ⟨?_, by rw [usage, hsel]; exact hcounts.2, fun l hl => ?_⟩
    · rw [usage, read, hsel, hcounts.1, h.usage, filter_append]
      exact (completions_concat _ _ _).symm
    · rw [log, hno up] at hl
      exact absurd hl (by simp)
  | panics text up usage read log =>
    refine ⟨?_, by rw [usage, hsel]; exact h.calls, fun l hl => ?_⟩
    · rw [usage, read, hsel, h.usage]
      simp
    · rw [log, hno up] at hl
      exact absurd hl (by simp)
  | ends up up' usage read log =>
    refine ⟨by rw [usage, read, hsel]; exact h.usage, by rw [usage, hsel]; exact h.calls, ?_⟩
    intro l hl
    rw [log] at hl
    obtain rfl := Option.some.inj hl
    exact ⟨up', usage.symm⟩

theorem sniffed_run : Sniffed (run sel first ops) := by
  have hstart : Sniffed (start sel first) :=
    ⟨rfl, fun _ => rfl, fun l hl => absurd hl (by simp [start])⟩
  exact Run.states_inv Sniffed (fun _ op h => h.step op) hstart _ Run.foldl_mem_states

theorem sel_run : (run sel first ops).sel = sel :=
  Run.states_inv (fun s => s.sel = sel) (fun s op h => (effect_step s op).1.trans h) rfl _
    Run.foldl_mem_states

/-- A session records the usage of all its completed responses if and only if those that were
overwritten add up to nothing. -/
theorem recorded_usage_iff (sel : WsSelection) (first : Payload) (ops : List RelayOp)
    (log : RelayLog) (h : (run sel first ops).log = some log) :
    log.usage.counts = (completions sel (run sel first ops).read).sum ↔
      (overwritten sel (run sel first ops).read).sum = 0 := by
  have hinv := sniffed_run sel first ops
  rw [(hinv.log log h).2, hinv.usage, sel_run, ← sum_completions]
  exact left_eq_add

/-- The frame of a response with 100 tokens in and 50 out. -/
def completedText : List Char := (lastFrame "response.completed").2.text

def plainSelection : WsSelection where
  model := "gpt-4o".toList
  credentialType := .apiKey

/-- A session with so many responses, which the upstream closes. -/
def responses (n : Nat) : List RelayOp :=
  List.replicate n (.upFrame completedText none none) ++ [.upReadErr (.close 1000), .finish]

theorem sniff_completedText : sniffResponsesCompleted completedText =
    some { it := 100, ot := 50, tt := 150 } := by
  decide +kernel

theorem frameCounts_completedText :
    frameCounts plainSelection completedText = some (100, 50, 150, 0, 0, 0) := by
  rw [frameCounts, sniff_completedText]
  rfl

theorem recorded_usage_one :
    ∃ log, (run plainSelection (.raw []) (responses 1)).log = some log ∧
      log.usage.counts =
        (completions plainSelection (run plainSelection (.raw []) (responses 1)).read).sum := by
  refine ⟨_, rfl, (recorded_usage_iff plainSelection (.raw []) (responses 1) _ rfl).mpr ?_⟩
  have hread : (run plainSelection (.raw []) (responses 1)).read = [⟨completedText, true⟩] := rfl
  rw [hread]
  simp [overwritten, completions, frameCounts_completedText]

/-- Of two responses only the second is recorded. -/
theorem second_response_overwrites :
    ∃ log, (run plainSelection (.raw []) (responses 2)).log = some log ∧
      log.usage.counts = (100, 50, 150, 0, 0, 0) ∧
      (completions plainSelection (run plainSelection (.raw []) (responses 2)).read).sum =
        (200, 100, 300, 0, 0, 0) := by
  have hread : (run plainSelection (.raw []) (responses 2)).read =
      [⟨completedText, true⟩, ⟨completedText, true⟩] := rfl
  have husage : (run plainSelection (.raw []) (responses 2)).usage.counts =
      (100, 50, 150, 0, 0, 0) := by
    rw [(sniffed_run plainSelection (.raw []) (responses 2)).usage, hread, sel_run]
    simp [completions, frameCounts_completedText]
  refine ⟨_, rfl, husage, ?_⟩
  rw [hread]
  simp [completions, frameCounts_completedText]

end Relay
end C4Gateway.Proxy
