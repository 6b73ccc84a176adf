import C4Gateway.Pricing.Entry
import C4Gateway.Pricing.Reprice
import C4Gateway.Proxy.UsageLog

/-! The size of a prompt, by which a price variant is selected.  The live path and the delayed
recovery put it together from the counters of the usage log, each with a function of its own that
goes by the client's format. -/

namespace C4Gateway.Proxy

/-- The version of the live path. -/
def pricingPromptTokens (l : UsageLog) : Int :=
  if isOpenAIFamily l.format then addUsageTokens l.inputTokens l.cacheReadTokens
  else l.inputTokens

/-- The size that `applyBilling` asks for prices with; the price of a search has none. -/
def UsageLog.livePrompt (l : UsageLog) : Int :=
  if l.format = .openaiSearch then 0 else pricingPromptTokens l

/-- The columns of the log that recovery reads. -/
def UsageLog.usage (l : UsageLog) : Usage where
  format := l.format
  inputTokens := l.inputTokens
  outputTokens := l.outputTokens
  totalTokens := l.totalTokens
  cacheReadTokens := l.cacheReadTokens
  cacheCreationTokens := l.cacheCreationTokens
  callCount := l.callCount

/-- The size that `RepriceUsage` asks for prices with. -/
def UsageLog.recoveredPrompt (l : UsageLog) : Int := C4Gateway.pricingPromptTokens l.usage

/-- The whole prompt of a provider's response, up to the largest counter. -/
def UsageTuple.wholePrompt (u : UsageTuple) : Int := min (u.it + u.cr + u.cc) maxInt64

/-- Both sizes are at least the whole prompt, and select the same variant of any list. -/
structure PromptCovered (l : UsageLog) (u : UsageTuple) : Prop where
  live : u.wholePrompt ≤ l.livePrompt
  recovered : u.wholePrompt ≤ l.recoveredPrompt
  same : ∀ clock (variants : List Pricing.PriceVariant) tier at_,
    (variants.find? fun v => Pricing.variantMatches clock v tier l.livePrompt at_) =
      variants.find? fun v => Pricing.variantMatches clock v tier l.recoveredPrompt at_

/-- Where the counters of the log make up the whole prompt by the rule of the client's format. -/
def PromptCounted (l : UsageLog) (u : UsageTuple) : Prop :=
  if isOpenAIFamily l.format then
    l.inputTokens = maxInt64 ∨ l.inputTokens + u.cr = maxInt64 ∨
      l.inputTokens + u.cr < maxInt64 ∧ u.it + u.cc ≤ l.inputTokens
  else if l.format = .openaiSearch then l.inputTokens = 0 ∧ u.it = 0 ∧ u.cr = 0 ∧ u.cc = 0
  else l.inputTokens = maxInt64 ∨ u.it + u.cr + u.cc ≤ l.inputTokens

/-- Counters as a provider reports them. -/
structure UsageTuple.Counters (u : UsageTuple) : Prop where
  it : 0 ≤ u.it ∧ u.it ≤ maxInt64
  cr : 0 ≤ u.cr ∧ u.cr ≤ maxInt64
  cc : 0 ≤ u.cc ∧ u.cc ≤ maxInt64

/-- A variant for prompts from a size on. -/
def variantFrom (size : Int) : Pricing.PriceVariant where
  model := []
  seq := 1
  ctxMin := some size

theorem same_variant_iff (p q : Int) :
    (∀ clock (variants : List Pricing.PriceVariant) tier at_,
      (variants.find? fun v => Pricing.variantMatches clock v tier p at_) =
        variants.find? fun v => Pricing.variantMatches clock v tier q at_) ↔ p = q := by
  constructor
  · intro h
    have hfind (size : Int) : size ≤ p ↔ size ≤ q := by
      have hsame := h (fun _ => (0, 0)) [variantFrom size] "" ⟨0, 0, 0⟩
      have hfound := congrArg Option.isSome hsame
      rw [Bool.eq_iff_iff] at hfound
      simpa [Pricing.variantMatches, variantFrom, Pricing.timeMatches] using hfound
    exact le_antisymm ((hfind p).mp le_rfl) ((hfind q).mpr le_rfl)
  · rintro rfl clock variants tier at_
    rfl

/-- A log keeps the cache reads of the response, and its input is not less. -/
structure LogOf (l : UsageLog) (u : UsageTuple) : Prop where
  cacheRead : l.cacheReadTokens = u.cr
  input : u.it ≤ l.inputTokens ∧ l.inputTokens ≤ maxInt64

theorem logOf_logWithCtx (ctx : RequestContext) (s : LogSubject) {u : UsageTuple}
    (hu : u.Counters) (hctx : ∀ rm ∈ ctx.reqMeta, rm.estimatedInputTokens ≤ maxInt64) :
    LogOf (logWithCtx ctx (buildLog s u)) u := by
  obtain ⟨⟨hit, hit'⟩, ⟨hcr, hcr'⟩, -⟩ := hu
  have hinput : u.it ≤ u.input ∧ u.input ≤ maxInt64 :=
    ⟨le_addUsageTokens _ hit', addUsageTokens_le _ _⟩
  have hestimate : ∀ estimated : Int, estimated ≤ maxInt64 → 0 < estimated →
      u.it ≤ ((buildLog s u).estimate estimated).inputTokens ∧
        ((buildLog s u).estimate estimated).inputTokens ≤ maxInt64 := by
    intro estimated hle hpos
    simp only [UsageLog.estimate, buildLog]
    constructor <;> omega
  have hcache : (logWithCtx ctx (buildLog s u)).cacheReadTokens = u.cr := by
    obtain ⟨reqMeta, ttft⟩ := ctx
    cases reqMeta with
    | none => cases ttft <;> rfl
    | some rm =>
      unfold logWithCtx
      cases ttft <;> dsimp only <;> split <;> rfl
  have htokens : (logWithCtx ctx (buildLog s u)).inputTokens = u.input ∨
      ∃ rm ∈ ctx.reqMeta, 0 < rm.estimatedInputTokens ∧
        (logWithCtx ctx (buildLog s u)).inputTokens =
          ((buildLog s u).estimate rm.estimatedInputTokens).inputTokens := by
    have htokens := congrArg Prod.fst (tokens_logWithCtx ctx (buildLog s u))
    cases hmeta : ctx.reqMeta with
    | none =>
      rw [hmeta] at htokens
      exact .inl htokens
    | some rm =>
      simp only [hmeta] at htokens
      by_cases hest : (buildLog s u).estimates rm
      · rw [if_pos hest] at htokens
        exact .inr ⟨rm, rfl, (((buildLog s u).estimates_iff rm).mp hest).2.2.1, htokens⟩
      · rw [if_neg hest] at htokens
        exact .inl htokens
  refine ⟨hcache, ?_⟩
  rcases htokens with heq | ⟨rm, hrm, hpos, heq⟩
  · rw [heq]
    exact hinput
  · rw [heq]
    exact hestimate _ (hctx rm hrm) hpos

def subject (format : RequestFormat) : LogSubject where
  reqID := "r1"
  groupID := 1
  accountID := 1
  reqModel := "m"
  usedModel := "m"
  format := format
  status := 200
  errorType := .none
  start := 0
  now := 0

end C4Gateway.Proxy
