import C4Gateway.Lib.Int64

/-! Domain types shared by the ledger, the prices and the request path.  Times are integers, and
an optional pointer of the source is an `Option`. -/

namespace C4Gateway

inductive RequestFormat where
  | openaiChat
  | openaiResponses
  | openaiResponsesWS
  | anthropic
  | openaiImages
  | openaiSearch
  deriving DecidableEq, Repr

def RequestFormat.isResponses : RequestFormat → Bool
  | .openaiResponses | .openaiResponsesWS => true
  | _ => false

inductive ErrorType where
  | none
  | err429
  | err4xx
  | err5xx
  | network
  | auth
  | noAccount
  | abort
  | billing
  deriving DecidableEq, Repr

inductive PriceMode where
  | token
  | call
  | image
  deriving DecidableEq, Repr

/-- The prices in force for one request.  An absent price is not configured, and a price of 0 is
free. -/
structure ResolvedPrices where
  mode : PriceMode := .token
  inputPerM : Option Int := none
  outputPerM : Option Int := none
  cacheReadPerM : Option Int := none
  cacheWritePerM : Option Int := none
  pricePerCall : Option Int := none
  imgInTokPerM : Option Int := none
  imgOutTokPerM : Option Int := none
  pricePerImage : Option Int := none
  variantSeq : Option Int := none
  provider : Option String := none
  deriving DecidableEq, Repr

/-- A key with the limits of its own and of its user. -/
structure KeyMeta where
  keyID : Int
  userID : Int := 0
  keyMaxConc : Int := 0
  userMaxConc : Int := 0
  hasQuota : Bool := false
  quota : Int := 0
  quotaUsed : Int := 0
  deriving DecidableEq, Repr

/-- What a request used, as far as prices depend on it. -/
structure Usage where
  format : RequestFormat
  inputTokens : Int := 0
  outputTokens : Int := 0
  totalTokens : Int := 0
  cacheReadTokens : Int := 0
  cacheCreationTokens : Int := 0
  callCount : Int := 0
  deriving DecidableEq, Repr

def defaultCodexSearchPricePerCall : Int := 1000

end C4Gateway
