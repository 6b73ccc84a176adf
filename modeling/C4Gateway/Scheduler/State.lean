import C4Gateway.Domain

/-! The rows that the scheduler loads, and the state it keeps of an account.  A map of the source is
a list of pairs here; its keys are distinct. -/

namespace C4Gateway

inductive AccountStatus where
  | active
  | unhealthy
  | err429
  | disabled
  deriving DecidableEq, Repr

structure Template where
  id : Int
  supportedFormats : List RequestFormat := []
  models : List String := []
  formatModels : List (RequestFormat × List String) := []
  modelMapping : List (String × String) := []
  deletedAt : Option Int := none
  deriving DecidableEq, Repr

namespace Template

def formatSupports (t : Template) (f : RequestFormat) (m : String) : Bool :=
  t.supportedFormats.contains f &&
    match t.formatModels.lookup f with
    | some list => list.contains m
    | none => true

def serves (t : Template) (m : String) : Bool :=
  t.models.contains m || t.formatModels.any (·.2.contains m) || (t.modelMapping.lookup m).isSome

/-- Without a model space a template takes every model. -/
def hasModelSpace (t : Template) : Bool :=
  !t.models.isEmpty || !t.formatModels.isEmpty || !t.modelMapping.isEmpty

end Template

structure Upstream where
  id : Int
  name : String := ""
  baseURL : String := ""
  upstreamKey : Option String := none
  multiplierBP : Int := 10000
  enabled : Bool := true
  deletedAt : Option Int := none
  deriving DecidableEq, Repr

structure Account where
  id : Int
  templateID : Int := 0
  template : Option Template := none
  baseURL : Option String := none
  upstreamID : Option Int := none
  upstream : Option Upstream := none
  upstreamKey : String := ""
  status : AccountStatus := .active
  cooldownUntil : Option Int := none
  weight : Int := 100
  maxConcurrency : Int := 0
  lastError : Option String := none
  failedAt : Option Int := none
  deletedAt : Option Int := none
  deriving DecidableEq, Repr

/-- A rebuild leaves out an account without a live template. -/
def Account.routable (a : Account) : Bool := a.template.any (·.deletedAt.isNone)

def errMsgMaxLen : Nat := 500

def truncateErrMsg (s : String) : String :=
  if s.utf8ByteSize ≤ errMsgMaxLen ∨ s.length ≤ errMsgMaxLen then s
  else String.ofList (s.toList.take errMsgMaxLen)

def errMsgOr (dflt errMsg : String) : String :=
  if truncateErrMsg errMsg ≠ "" then truncateErrMsg errMsg else dflt

/-- The state of an account, which survives a rebuild. -/
structure AccState where
  status : AccountStatus
  cooldownUntil : Option Int := none
  errCount : Int := 0
  lastError : Option String := none
  lastUsedAt : Option Int := none
  deriving DecidableEq, Repr

namespace AccState

def cooling (st : AccState) (now : Int) : Bool := st.cooldownUntil.any (now ≤ ·)

def ofRow (a : Account) : AccState := { status := a.status, cooldownUntil := a.cooldownUntil }

/-- What a rebuild makes of the state of an account that it knows: the status is the row's, and so
is the cooldown if the row has one. -/
def sync (cur : AccState) (a : Account) : AccState :=
  { cur with status := a.status, cooldownUntil := a.cooldownUntil.or cur.cooldownUntil }

/-- One turn of the loop of `FailAccount`, for an account that is not disabled. -/
def fail (cur : AccState) (now : Int) (reason : String) : AccState :=
  { cur with
    status := .disabled
    lastError := if truncateErrMsg reason ≠ "" then some (truncateErrMsg reason) else cur.lastError
    lastUsedAt := some now }

/-- One turn of the loop of `apply`; `none` where it returns before the swap. -/
def apply (cur : AccState) (now : Int) (st : Option AccountStatus) (cooldownUntil : Option Int)
    (errMsg : String) : Option AccState :=
  if cur.status = .disabled then none
  else if st = some .active ∧ cur.cooling now then none
  else
    let next :=
      match st with
      | some .err429 =>
        { cur with
          status := .err429
          errCount := cur.errCount + 1
          lastError := some (errMsgOr "upstream 429 rate limited" errMsg) }
      | some .unhealthy =>
        { cur with
          status := .unhealthy
          errCount := cur.errCount + 1
          lastError := some (errMsgOr "upstream error" errMsg) }
      | some .active => { cur with status := .active, errCount := 0, lastError := none }
      | some .disabled => { cur with status := .disabled }
      | none => cur
    some { next with
      cooldownUntil := cooldownUntil.or next.cooldownUntil
      lastUsedAt := some now }

theorem not_disabled_of_apply {cur next : AccState} {now : Int} {st : Option AccountStatus}
    {cooldownUntil : Option Int} {errMsg : String}
    (h : cur.apply now st cooldownUntil errMsg = some next) : cur.status ≠ .disabled := by
  intro hdisabled
  simp [apply, hdisabled] at h

end AccState
end C4Gateway
