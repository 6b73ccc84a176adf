import C4Gateway.Proxy.WsRelay

/-! The requests of a WebSocket session.  The first frame is checked against the tier policy and
gets the model of the selection; every later frame of the client goes to the upstream as it is. -/

namespace C4Gateway.Proxy

open Keys (serviceTier)
open JsonText

/-! ### The first frame -/

/-- Why a turn is refused. -/
inductive WsRefusal where
  | invalidJSON
  | invalidField (err : String)
  | tierNotString
  | tierRejected
  deriving DecidableEq, Repr

def WsRefusal.message : WsRefusal → String
  | .invalidJSON => "invalid request body: invalid JSON"
  | .invalidField err => "invalid request body: " ++ err
  | .tierNotString => "invalid request body: service_tier must be a string"
  | .tierRejected => "service_tier rejected by gateway policy"

/-- A session that is accepted, with the model and the tier it is recorded under.  There is a tier
only if there is billing. -/
structure WsRequest where
  reqModel : List Char
  tier : Option Tier
  stripTier : Bool
  first : Data

namespace BodyReader

variable (R : BodyReader)

def extractTier (d : Doc) : Option Tier :=
  match d.firstField serviceTier with
  | none | some .null | some (.str _) =>
    some (R.normalizeTier (R.gjsonString (d.firstField serviceTier)))
  | _ => none

def acceptTier (reqModel : List Char) (data : Data) : Except WsRefusal WsRequest :=
  match R.extractTier data.doc with
  | none => .error .tierNotString
  | some tier =>
    match R.policy tier with
    | .passthrough => .ok ⟨reqModel, some tier, false, data⟩
    | .strip => .ok ⟨reqModel, some tier, true, data⟩
    | .reject => .error .tierRejected

/-- The checks of `HandleResponsesWS` on the first frame. -/
def acceptResponsesWS : Payload → Except WsRefusal WsRequest
  | .raw _ => .error .invalidJSON
  | .json data =>
    match validateRequestParameterTypes .openaiResponses data.text with
    | some err => .error (.invalidField err)
    | none =>
      let reqModel := R.gjsonString (data.doc.firstField Keys.model)
      if R.bill.isSome then R.acceptTier reqModel data else .ok ⟨reqModel, none, false, data⟩

end BodyReader

/-- The frame that an attempt sends first.  The Codex client gets the frame of the client, whatever
is to be stripped. -/
def firstFrame (sel : WsSelection) (req : WsRequest) : Data :=
  let first :=
    if req.stripTier && !isCodexCredentialType sel.credentialType then
      req.first.doc.deleteField serviceTier
    else req.first.doc
  { req.first with
    doc := if sel.model ≠ [] ∧ sel.model ≠ req.reqModel then
      first.setField Keys.model (.str (quote sel.model)) else first }

/-! ### Requests that may pass -/

def responseCreate := "response.create".toList

def isCreate (d : Doc) : Prop := stringValue (d.lastField Keys.type) = some responseCreate

namespace BodyReader

variable (R : BodyReader)

/-- The tier that the upstream decodes. -/
def tierOf (d : Doc) : Tier :=
  R.normalizeTier ((stringValue (d.lastField serviceTier)).getD [])

/-- The policy lets the tier of a request pass, the tier is the one that is recorded, or was
stripped, and the model is the one of the selection. -/
structure Lawful (sel : WsSelection) (recorded : Option Tier) (d : Doc) : Prop where
  policy : R.policy (R.tierOf d) = .passthrough
  recorded : ∀ tier, recorded = some tier →
    R.tierOf d = tier ∨ R.policy tier = .strip ∧ d.lastField serviceTier = none
  model : stringValue (d.lastField Keys.model) = some sel.model

def LawfulFrame (sel : WsSelection) (recorded : Option Tier) : Payload → Prop
  | .json data => isCreate data.doc → R.Lawful sel recorded data.doc
  | .raw _ => True

/-- A first frame whose model can be replaced and whose tier is read as it is decoded. -/
structure FirstLawful (sel : WsSelection) (d : Doc) : Prop where
  model : sel.model = [] ∨ sel.model = R.gjsonString (d.firstField Keys.model) ∨
      2 ≤ (d.fields Keys.model).length →
    stringValue (d.lastField Keys.model) = some sel.model
  tier : ∀ tier, R.bill.isSome = true → R.extractTier d = some tier →
    if R.policy tier = .strip then
      isCodexCredentialType sel.credentialType = false ∧ (d.fields serviceTier).length ≤ 1
    else R.tierOf d = tier

/-- What is known of a session that was accepted. -/
structure Accepted (req : WsRequest) : Prop where
  isObj : req.first.doc.isObj
  reqModel : req.reqModel = R.gjsonString (req.first.doc.firstField Keys.model)
  tier : req.tier = if R.bill.isSome then R.extractTier req.first.doc else none
  extracted : R.bill.isSome = true → ∃ tier, R.extractTier req.first.doc = some tier
  policy : ∀ tier, req.tier = some tier → R.policy tier ≠ .reject
  strip : req.stripTier = true ↔ ∃ tier, req.tier = some tier ∧ R.policy tier = .strip

theorem accepted_acceptTier {data : Data} {req : WsRequest} (hobj : data.doc.isObj)
    (hbill : R.bill.isSome = true)
    (h : R.acceptTier (R.gjsonString (data.doc.firstField Keys.model)) data = .ok req) :
    R.Accepted req := by
  unfold acceptTier at h
  split at h
  · cases h
  · next tier htier =>
    split at h
    on_goal 3 => cases h
    all_goals next hpolicy =>
      obtain rfl := Except.ok.inj h
      refine ⟨hobj, rfl, by simp [hbill, htier], fun _ => ⟨tier, htier⟩, ?_, ?_⟩
      · rintro _ ⟨⟩
        simp [hpolicy]
      · simp [hpolicy]

theorem accepted {first : Payload} {req : WsRequest} (h : R.acceptResponsesWS first = .ok req) :
    R.Accepted req := by
  cases first with
  | raw text => exact absurd h (by simp [acceptResponsesWS])
  | json data =>
    simp only [acceptResponsesWS] at h
    split at h
    · cases h
    · next hvalid =>
      have hobj := ((validateRequestParameterTypes_eq_none_iff .openaiResponses data
        (by simp [requestFieldsFor, responsesRequestFields])).mp hvalid).1
      split at h
      · next hbill => exact R.accepted_acceptTier hobj hbill h
      · next hbill =>
        obtain rfl := Except.ok.inj h
        exact ⟨hobj, rfl, by simp [hbill], fun h => absurd h hbill,
          fun _ h => absurd h (by simp), by simp⟩

end BodyReader

/-! ### The first frame that is sent -/

theorem fields_firstFrame_model (sel : WsSelection) (req : WsRequest)
    (h : req.first.doc.isObj) :
    (firstFrame sel req).doc.fields Keys.model =
      if sel.model ≠ [] ∧ sel.model ≠ req.reqModel then
        .str (quote sel.model) :: (req.first.doc.fields Keys.model).tail
      else req.first.doc.fields Keys.model := by
  have hne : Keys.model ≠ serviceTier := by decide
  unfold firstFrame
  split <;> split <;> simp [Doc.fields_setField_self, hne, h]

theorem fields_firstFrame_of_ne (sel : WsSelection) (req : WsRequest) {key : List Char}
    (hkey : key ≠ Keys.model) :
    (firstFrame sel req).doc.fields key =
      if key = serviceTier ∧ req.stripTier = true ∧
          isCodexCredentialType sel.credentialType = false then
        (req.first.doc.fields key).tail
      else req.first.doc.fields key := by
  unfold firstFrame
  dsimp only
  by_cases hstrip : (req.stripTier && !isCodexCredentialType sel.credentialType) = true
  · by_cases htier : key = serviceTier
    · subst htier
      split <;> simp_all
    · split <;> simp_all
  · have hstrip' : ¬(req.stripTier = true ∧ isCodexCredentialType sel.credentialType = false) := by
      simpa using hstrip
    split <;> simp_all

namespace BodyReader

variable {R : BodyReader} {req : WsRequest}

theorem policy_of_bill_none (h : R.bill.isSome = false) (tier : Tier) :
    R.policy tier = .passthrough := by
  rw [Option.isSome_eq_false_iff, Option.isNone_iff_eq_none] at h
  simp [policy, h]

theorem fields_ne_nil_of_policy {d : Doc} {tier : Tier} (h : R.extractTier d = some tier)
    (hpolicy : R.policy tier ≠ .passthrough) : d.fields serviceTier ≠ [] := by
  intro hnil
  have hfirst : d.firstField serviceTier = none := by
    rw [Doc.firstField_eq_head?, hnil]
    rfl
  rw [extractTier, hfirst] at h
  cases h
  exact hpolicy rfl

theorem model_firstFrame_iff (h : R.Accepted req) (sel : WsSelection) :
    stringValue ((firstFrame sel req).doc.lastField Keys.model) = some sel.model ↔
      (sel.model = [] ∨
          sel.model = R.gjsonString (req.first.doc.firstField Keys.model) ∨
          2 ≤ (req.first.doc.fields Keys.model).length →
        stringValue (req.first.doc.lastField Keys.model) = some sel.model) := by
  rw [← h.reqModel, Doc.lastField_eq_getLast?, Doc.lastField_eq_getLast?,
    fields_firstFrame_model sel req h.isObj]
  by_cases hset : sel.model ≠ [] ∧ sel.model ≠ req.reqModel
  · rw [if_pos hset]
    rcases hlist : req.first.doc.fields Keys.model with _ | ⟨v, _ | ⟨w, rest⟩⟩
    iterate 2 simp [stringValue, hset]
    simp
  · rw [if_neg hset]
    refine ⟨fun hlast _ => hlast, fun hlast => hlast ?_⟩
    rcases not_and_or.mp hset with hnil | hsame
    · exact .inl (not_not.mp hnil)
    · exact .inr (.inl (not_not.mp hsame))

/-- A tier that is to be stripped is gone from the first frame if it stood there once and the frame
is not for the Codex client. -/
theorem tier_firstFrame_of_strip {tier : Tier} (h : R.Accepted req) (sel : WsSelection)
    (htier : req.tier = some tier) (hpolicy : R.policy tier = .strip) :
    (R.policy (R.tierOf (firstFrame sel req).doc) = .passthrough ∧
      (R.tierOf (firstFrame sel req).doc = tier ∨
        (firstFrame sel req).doc.lastField serviceTier = none)) ↔
      isCodexCredentialType sel.credentialType = false ∧
        (req.first.doc.fields serviceTier).length ≤ 1 := by
  have hbill : R.bill.isSome = true := by
    by_contra hbill
    rw [policy_of_bill_none (by simpa using hbill)] at hpolicy
    exact absurd hpolicy (by decide)
  have hextract : R.extractTier req.first.doc = some tier := by
    have := h.tier
    rwa [htier, if_pos hbill, eq_comm] at this
  have hne := fields_ne_nil_of_policy hextract (by simp [hpolicy])
  have hstrip : req.stripTier = true := h.strip.mpr ⟨tier, htier, hpolicy⟩
  have hiff : (R.policy (R.tierOf (firstFrame sel req).doc) = .passthrough ∧
      (R.tierOf (firstFrame sel req).doc = tier ∨
        (firstFrame sel req).doc.lastField serviceTier = none)) ↔
      (firstFrame sel req).doc.fields serviceTier = [] := by
    rw [← List.getLast?_eq_none_iff, ← Doc.lastField_eq_getLast?]
    constructor
    · rintro ⟨hpass, rfl | hnone⟩
      · rw [hpolicy] at hpass
        exact absurd hpass (by decide)
      · exact hnone
    · intro hnone
      refine ⟨?_, .inr hnone⟩
      rw [tierOf, hnone]
      rfl
  rw [hiff, fields_firstFrame_of_ne sel req (by decide)]
  cases hcodex : isCodexCredentialType sel.credentialType with
  | true => simpa using hne
  | false =>
    simp only [hstrip, if_true, true_and]
    rw [← List.length_eq_zero_iff, List.length_tail, Nat.sub_eq_zero_iff_le]

theorem tier_firstFrame_of_pass {sel : WsSelection} (hstrip : req.stripTier = false) :
    R.tierOf (firstFrame sel req).doc = R.tierOf req.first.doc := by
  rw [tierOf, tierOf, Doc.lastField_eq_getLast?, fields_firstFrame_of_ne sel req (by decide),
    Doc.lastField_eq_getLast?]
  simp [hstrip]

theorem lawful_firstFrame_iff (h : R.Accepted req) (sel : WsSelection) :
    R.Lawful sel req.tier (firstFrame sel req).doc ↔ R.FirstLawful sel req.first.doc := by
  have hsplit : R.Lawful sel req.tier (firstFrame sel req).doc ↔
      stringValue ((firstFrame sel req).doc.lastField Keys.model) = some sel.model ∧
        R.policy (R.tierOf (firstFrame sel req).doc) = .passthrough ∧
        ∀ tier, req.tier = some tier → R.tierOf (firstFrame sel req).doc = tier ∨
          R.policy tier = .strip ∧ (firstFrame sel req).doc.lastField serviceTier = none :=
    ⟨fun h => ⟨h.model, h.policy, h.recorded⟩, fun h => ⟨h.2.1, h.2.2, h.1⟩⟩
  have hfirst : R.FirstLawful sel req.first.doc ↔ _ ∧ _ :=
    ⟨fun h => ⟨h.model, h.tier⟩, fun h => ⟨h.1, h.2⟩⟩
  rw [hsplit, hfirst, model_firstFrame_iff h]
  refine and_congr_right fun _ => ?_
  by_cases hbill : R.bill.isSome = true
  · obtain ⟨tier, hextract⟩ := h.extracted hbill
    have htier : req.tier = some tier := by rw [h.tier, if_pos hbill, hextract]
    simp only [htier, Option.some.injEq, forall_eq', hbill, hextract, true_implies]
    by_cases hpolicy : R.policy tier = .strip
    · simpa [hpolicy] using tier_firstFrame_of_strip h sel htier hpolicy
    · have hpass : R.policy tier = .passthrough := by
        have := h.policy tier htier
        cases hp : R.policy tier <;> simp_all
      have hstrip : req.stripTier = false := by
        refine Bool.eq_false_iff.mpr fun hstrip => ?_
        obtain ⟨tier', htier', hpolicy'⟩ := h.strip.mp hstrip
        rw [htier, Option.some.injEq] at htier'
        exact hpolicy (htier' ▸ hpolicy')
      rw [tier_firstFrame_of_pass hstrip]
      constructor
      · rintro ⟨-, hsame | ⟨hpolicy', -⟩⟩
        · simpa [hpolicy] using hsame
        · exact absurd hpolicy' hpolicy
      · intro hsame
        rw [if_neg hpolicy] at hsame
        exact ⟨by rw [hsame, hpass], .inl hsame⟩
  · have hnone : req.tier = none := by rw [h.tier, if_neg hbill]
    simp [hnone, hbill, policy_of_bill_none (R := R) (by simpa using hbill)]

end BodyReader

/-! ### The frames of a session -/

theorem Relay.sent_step (s : Relay) (op : RelayOp) :
    (s.step op).sent = s.sent ∧ (∀ frame, op = .clientFrame frame none → s.clientLoop = false) ∨
      ∃ frame, op = .clientFrame frame none ∧ s.clientLoop = true ∧
        (s.step op).sent = s.sent ++ [frame] := by
  cases op with
  | clientFrame frame writeErr =>
    simp only [step]
    cases hloop : s.clientLoop with
    | false => exact .inl ⟨rfl, fun _ _ => rfl⟩
    | true =>
      cases writeErr with
      | none => exact .inr ⟨frame, rfl, rfl, rfl⟩
      | some err => exact .inl ⟨rfl, fun _ h => absurd h (by simp)⟩
  | upFrame text hookPanic writeErr =>
    refine .inl ⟨?_, fun _ h => absurd h (by simp)⟩
    simp only [step]
    split
    · cases hookPanic with
      | some value => rfl
      | none => cases writeErr <;> rfl
    · rfl
  | upReadErr err =>
    refine .inl ⟨?_, fun _ h => absurd h (by simp)⟩
    simp only [step]
    split
    · cases err <;> rfl
    · rfl
  | clientReadErr _ | clientPanic _ | upPanic _ | pingErr _ | heartbeatPanic _ | heartbeatDone |
    finish =>
    refine .inl ⟨?_, fun _ h => absurd h (by simp)⟩
    simp only [step]
    split <;> rfl
  | cancel => exact .inl ⟨rfl, fun _ h => absurd h (by simp)⟩

namespace BodyReader

variable (R : BodyReader)

/-- A frame that the client sends after the first one is lawful as it is. -/
def SendsLawful (sel : WsSelection) (recorded : Option Tier) (s : Relay) (op : RelayOp) : Prop :=
  ∀ frame, op = .clientFrame frame none → s.clientLoop = true → R.LawfulFrame sel recorded frame

theorem lawful_step_iff (sel : WsSelection) (recorded : Option Tier) (s : Relay) (op : RelayOp)
    (h : ∀ frame ∈ s.sent, R.LawfulFrame sel recorded frame) :
    (∀ frame ∈ (s.step op).sent, R.LawfulFrame sel recorded frame) ↔
      R.SendsLawful sel recorded s op := by
  rcases s.sent_step op with ⟨hsent, hno⟩ | ⟨frame, rfl, hloop, hsent⟩
  · rw [hsent]
    refine iff_of_true h fun frame hop hloop => ?_
    simp [hno frame hop] at hloop
  · rw [hsent]
    constructor
    · rintro hall _ ⟨⟩ -
      exact hall frame (by simp)
    · intro hsends frame' hframe'
      rcases List.mem_append.mp hframe' with hold | hnew
      · exact h frame' hold
      · obtain rfl := List.mem_singleton.mp hnew
        exact hsends frame' rfl hloop

theorem isCreate_firstFrame (sel : WsSelection) (req : WsRequest) :
    isCreate (firstFrame sel req).doc ↔ isCreate req.first.doc := by
  rw [isCreate, isCreate, Doc.lastField_eq_getLast?, Doc.lastField_eq_getLast?,
    fields_firstFrame_of_ne sel req (by decide +kernel),
    if_neg fun h => absurd h.1 (by decide +kernel)]

/-- Every request that reaches the upstream in a session passed the policy, has the tier that is
recorded and names the model of the selection, if and only if the first request says each once and
those after it are lawful as the client sends them. -/
theorem requests_lawful_iff (first : Payload) (req : WsRequest)
    (haccept : R.acceptResponsesWS first = .ok req) (sel : WsSelection) (ops : List RelayOp) :
    (∀ s ∈ Run.states Relay.step (Relay.start sel (.json (firstFrame sel req))) ops,
        ∀ frame ∈ s.sent, R.LawfulFrame sel req.tier frame) ↔
      (isCreate req.first.doc → R.FirstLawful sel req.first.doc) ∧
        Run.Each Relay.step (R.SendsLawful sel req.tier)
          (Relay.start sel (.json (firstFrame sel req))) ops := by
  have hstart : (∀ frame ∈ (Relay.start sel (.json (firstFrame sel req))).sent,
      R.LawfulFrame sel req.tier frame) ↔
        (isCreate req.first.doc → R.FirstLawful sel req.first.doc) := by
    rw [← lawful_firstFrame_iff (R.accepted haccept), ← isCreate_firstFrame sel]
    simp [Relay.start, LawfulFrame]
  rw [← hstart]
  constructor
  · intro h
    have hfirst := h _ Run.self_mem_states
    exact ⟨hfirst, (Run.each_iff_states (fun _ => True) _ (fun _ _ _ _ => trivial)
      (fun s op _ hs => R.lawful_step_iff sel req.tier s op hs) trivial hfirst).mp h⟩
  · rintro ⟨hfirst, heach⟩
    exact (Run.each_iff_states (fun _ => True) _ (fun _ _ _ _ => trivial)
      (fun s op _ hs => R.lawful_step_iff sel req.tier s op hs) trivial hfirst).mpr heach

def createFrame (model : String) (more : List (String × Doc)) : Data :=
  (object (("type", .str (plain "response.create")) ::
    ("model", .str (plain model)) :: more)).data

def plainRequest : WsRequest where
  reqModel := "gpt-4o".toList
  tier := some .auto
  stripTier := false
  first := createFrame "gpt-4o" []

def miniSelection : WsSelection where
  model := "gpt-4o-mini".toList
  credentialType := .apiKey

theorem accept_plainRequest :
    refusing.acceptResponsesWS (.json (createFrame "gpt-4o" [])) = .ok plainRequest := by
  have hvalid : validateRequestParameterTypes .openaiResponses (createFrame "gpt-4o" []).text =
      none := by
    decide +kernel
  simp only [acceptResponsesWS, hvalid]
  rfl

theorem requests_lawful_same_model :
    refusing.acceptResponsesWS (.json (createFrame "gpt-4o" [])) = .ok plainRequest ∧
      ∀ s ∈ Run.states Relay.step
          (Relay.start miniSelection (.json (firstFrame miniSelection plainRequest)))
          [.clientFrame (.json (createFrame "gpt-4o-mini" [])) none],
        ∀ frame ∈ s.sent, refusing.LawfulFrame miniSelection plainRequest.tier frame := by
  refine ⟨accept_plainRequest, (requests_lawful_iff refusing _ plainRequest accept_plainRequest
    miniSelection _).mpr ⟨fun _ => ⟨?_, ?_⟩, ⟨?_, trivial⟩⟩⟩
  · rintro (h | h | h) <;> exact absurd h (by decide +kernel)
  · rintro tier - htier
    obtain rfl : Tier.auto = tier := Option.some.inj htier
    rfl
  · rintro frame ⟨⟩ - -
    refine ⟨rfl, ?_, rfl⟩
    rintro tier ⟨⟩
    exact .inl rfl

/-- A later request of the session. -/
def laterFrame : Data :=
  createFrame "o1-pro" [("service_tier", .str (plain "priority"))]

/-- The second request reaches the upstream with another model, in a tier that the policy refuses,
and the session is recorded with the first model and the default tier. -/
theorem later_request_unchecked :
    refusing.acceptResponsesWS (.json (createFrame "gpt-4o" [])) = .ok plainRequest ∧
      plainRequest.tier = some .auto ∧
      .json laterFrame ∈ (Relay.run miniSelection (.json (firstFrame miniSelection plainRequest))
        [.clientFrame (.json laterFrame) none]).sent ∧
      stringValue (laterFrame.doc.lastField Keys.type) = some responseCreate ∧
      stringValue (laterFrame.doc.lastField Keys.model) = some "o1-pro".toList ∧
      refusing.policy (refusing.tierOf laterFrame.doc) = .reject := by
  refine ⟨accept_plainRequest, rfl, ?_, by decide +kernel, by decide +kernel, by decide +kernel⟩
  exact List.mem_cons_of_mem _ List.mem_cons_self

end BodyReader
end C4Gateway.Proxy
