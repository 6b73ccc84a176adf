import C4Gateway.Scheduler.State
import C4Gateway.Lib.Heap
import C4Gateway.Lib.Text
import Mathlib.Data.List.Dedup

/-! The snapshot of the scheduler as a graph of objects.  Account instances are shared between the
groups they are in and from one generation to the next; a rebuild publishes new views on them at
once, and the maps of groups and accounts at its end. -/

namespace C4Gateway

open Function (update)

/-- The view that a rebuild publishes of an account, with the groups the account is in. -/
structure SnapshotStatic where
  acc : Account
  tpl : Option Template
  gid : Int
  groupIDs : List Int
  upstreamEnabled : Bool := true
  upstreamID : Int := 0
  upstreamName : String := ""
  upstreamHost : String := ""
  upstreamMultiplierBP : Int := 0
  deriving DecidableEq

/-- An account: the part that a rebuild replaces, and the state that it keeps. -/
structure AccountSnapshot where
  static : SnapshotStatic
  state : AccState
  deriving DecidableEq

namespace AccountSnapshot

def id (a : AccountSnapshot) : Int := a.static.acc.id

def withGroupIDs (a : AccountSnapshot) (groupIDs : List Int) : AccountSnapshot :=
  { a with static := { a.static with groupIDs } }

def withWeight (a : AccountSnapshot) (weight : Int) : AccountSnapshot :=
  { a with static := { a.static with acc := { a.static.acc with weight } } }

end AccountSnapshot

instance : Inhabited AccountSnapshot :=
  ⟨{ static := { acc := { id := 0 }, tpl := none, gid := 0, groupIDs := [] }
     state := { status := .active } }⟩

abbrev RouteKey := RequestFormat × String

/-- The sequences of a route, of addresses of accounts. -/
structure Route where
  tier1 : Option (List Nat) := none
  tier2 : Option (List Nat) := none
  deriving DecidableEq

structure UpstreamRoute where
  seq : List Nat := []
  fallback : List (List Nat) := []
  deriving DecidableEq

inductive RoutingMode where
  | accounts
  | upstreams
  deriving DecidableEq, Repr

/-- An upstream as the member of a group. -/
structure GroupUpstream where
  id : Int
  groupID : Int
  upstreamID : Int
  upstream : Option Upstream := none
  weight : Int := 100
  priority : Int := 0
  maxConcurrency : Int := 80
  enabled : Bool := true
  deriving DecidableEq, Repr

/-- What a group's row says about its upstream pool; the empty mode is `none`. -/
structure GroupConfig where
  routingMode : Option RoutingMode := none
  allowedModels : List String := []
  upstreamMembers : List GroupUpstream := []
  deriving DecidableEq, Repr

def GroupConfig.effectiveRoutingMode (cfg : GroupConfig) : RoutingMode :=
  cfg.routingMode.getD .accounts

/-- `runtime` stands for the counter and the state, which successive snapshots may share. -/
structure UpstreamSnapshot where
  member : GroupUpstream
  endpoint : String
  host : String
  key : String
  runtime : Nat
  deriving DecidableEq

instance : Inhabited UpstreamSnapshot :=
  ⟨{ member := { id := 0, groupID := 0, upstreamID := 0 }
     endpoint := "", host := "", key := "", runtime := 0 }⟩

/-- A group as the scheduler sees it; accounts are addresses of the arena. -/
structure GroupSnapshot where
  accounts : List Nat := []
  routes : List (RouteKey × Route) := []
  routingMode : Option RoutingMode := none
  allowedModels : List String := []
  upstreams : List Nat := []
  upstreamRoutes : List (RouteKey × UpstreamRoute) := []
  modelAliases : List (RouteKey × String) := []
  deriving DecidableEq, Inhabited

/-- The configuration of the scheduler, and what its rebuilds take from text processing: endpoints,
hosts and keys in normal form, the aliases of the routed models, and the routes of a pool. -/
structure SnapshotEnv where
  defaultMaxConcurrency : Int
  normalizeUpstreamEndpoint : String → String
  sanitizedUpstreamHost : String → String
  normalizeUpstreamKey : String → String
  buildModelAliases : List RouteKey → List RouteKey → List (RouteKey × String)
  buildUpstreamRoutes : List (Nat × UpstreamSnapshot) → List String →
    List (RouteKey × UpstreamRoute)

def isBlank (s : String) : Bool := (Text.trimSpace s.toList).isEmpty

/-- Whether `buildUpstreamSnapshots` takes a member into the pool. -/
def GroupUpstream.routable (m : GroupUpstream) : Bool :=
  0 < m.id && m.enabled && m.upstream.any fun u =>
    u.deletedAt.isNone && u.enabled && !isBlank u.baseURL

/-- An account with what its upstream gives it; one that cannot be used is disabled. -/
def effectiveStatic (env : SnapshotEnv) (a : Account) (gid : Int) : SnapshotStatic :=
  let av : SnapshotStatic := { acc := a, tpl := a.template, gid, groupIDs := [gid] }
  match a.upstreamID, a.upstream with
  | none, _ => av
  | some _, none => { av with upstreamEnabled := false }
  | some _, some u =>
    let baseURL := env.normalizeUpstreamEndpoint u.baseURL
    if u.deletedAt.isSome ∨ ¬u.enabled ∨ baseURL = "" then { av with upstreamEnabled := false }
    else
      let upstreamKey :=
        match u.upstreamKey with
        | some key => if isBlank a.upstreamKey then env.normalizeUpstreamKey key else a.upstreamKey
        | none => a.upstreamKey
      { av with
        acc := { a with baseURL := some baseURL, upstreamKey }
        upstreamID := u.id
        upstreamName := u.name
        upstreamHost := env.sanitizedUpstreamHost baseURL
        upstreamMultiplierBP := u.multiplierBP }

/-- The view of an account at its first occurrence in a load. -/
def firstStatic (env : SnapshotEnv) (a : Account) (gid : Int) : SnapshotStatic :=
  let av := effectiveStatic env a gid
  if a.maxConcurrency ≤ 0 then
    { av with acc := { av.acc with maxConcurrency := env.defaultMaxConcurrency } }
  else av

def maxSeqLen : Nat := 4096

/-- The sequence in which a route offers its candidates, each as often as its weight says.  The
source shuffles it at the end. -/
def newWeightedSeq (pool : List (Nat × Int)) : List Nat :=
  let items := (pool.filter (0 < ·.2)).map fun p => (p.1, p.2.toNat)
  let g := items.foldl (fun g p => Nat.gcd g p.2) 0
  let total := items.foldl (fun total p => min (total + p.2 / g) (2 ^ 64 - 1)) 0
  let scale := if total > maxSeqLen then (total + maxSeqLen - 1) / maxSeqLen else 1
  items.flatMap fun p => List.replicate (min (max (p.2 / g / scale) 1) maxSeqLen) p.1

def routeFormats : List RequestFormat :=
  [.openaiChat, .openaiResponses, .openaiResponsesWS, .openaiImages, .openaiSearch, .anthropic]

def modelSet (views : List SnapshotStatic) : List String :=
  (views.flatMap fun av =>
    match av.tpl with
    | some tpl => tpl.models ++ tpl.formatModels.flatMap (·.2) ++ tpl.modelMapping.map (·.1)
    | none => []).dedup

/-- `nil` if there are no candidates. -/
def weightedTier (view : Nat → SnapshotStatic) (pool : List Nat) : Option (List Nat) :=
  if pool = [] then none else some (newWeightedSeq (pool.map fun a => (a, (view a).acc.weight)))

/-- The default routes, of accounts that take every model, stand before those of the models; a
lookup finds the first. -/
def buildRoutes (view : Nat → SnapshotStatic) (accs : List Nat) : List (RouteKey × Route) :=
  let tier (p : Template → Bool) := accs.filter fun a => (view a).tpl.any p
  let defaults := routeFormats.filterMap fun format =>
    let t2 := tier fun tpl => tpl.supportedFormats.contains format && !tpl.hasModelSpace
    if t2 = [] then none else some ((format, ""), { tier2 := weightedTier view t2 })
  let models := (modelSet (accs.map view)).flatMap fun model =>
    routeFormats.filterMap fun format =>
      let t1 := tier fun tpl => tpl.formatSupports format model && tpl.serves model
      let t2 := tier fun tpl =>
        tpl.formatSupports format model && !tpl.serves model && !tpl.hasModelSpace
      if t1 = [] ∧ t2 = [] then none
      else some ((format, model), { tier1 := weightedTier view t1, tier2 := weightedTier view t2 })
  defaults ++ models

/-- The accounts of a load, by group; a map has each group once. -/
structure LoadedGroups where
  groups : List (Int × List Account)
  nodup : (groups.map (·.1)).Nodup

/-- The scheduler with its objects.  `writes` has what the last operation wrote to group objects,
one write after the other, and `runtimes` counts the cells of upstream members. -/
structure Scheduler where
  insts : Heap AccountSnapshot := { get := default }
  objs : Heap GroupSnapshot := { get := default }
  writes : List (Nat × GroupSnapshot) := []
  ups : Heap UpstreamSnapshot := { get := default }
  runtimes : Nat := 0
  groups : Int → Option Nat := fun _ => none
  byID : Int → Option Nat := fun _ => none
  upstreams : List (Int × Nat) := []

/-- The accounts built so far in a load, and those of the group that is being built. -/
structure Placing where
  insts : Heap AccountSnapshot
  byID : Int → Option Nat := fun _ => none
  accounts : List Nat := []

/-- One row of a group.  The first occurrence of an account gives it a new view, on its old instance
if it has one; a further one adds the group. -/
def Placing.place (env : SnapshotEnv) (old : Int → Option Nat) (gid : Int) (p : Placing)
    (a : Account) : Placing :=
  match p.byID a.id with
  | some addr =>
    { p with
      insts := p.insts.modify addr fun inst =>
        inst.withGroupIDs (inst.static.groupIDs ++ [gid])
      accounts := p.accounts ++ [addr] }
  | none =>
    match old a.id with
    | some addr =>
      { insts := p.insts.modify addr fun inst =>
          { static := firstStatic env a gid, state := inst.state.sync a }
        byID := update p.byID a.id (some addr)
        accounts := p.accounts ++ [addr] }
    | none =>
      { insts := p.insts.alloc { static := firstStatic env a gid, state := .ofRow a }
        byID := update p.byID a.id (some p.insts.next)
        accounts := p.accounts ++ [p.insts.next] }

namespace Scheduler

/-- A rebuild before it publishes: the scheduler with the objects it has made, and its maps. -/
structure Rebuild where
  s : Scheduler
  groups : Int → Option Nat := fun _ => none
  byID : Int → Option Nat := fun _ => none

def view (s : Scheduler) (a : Nat) : SnapshotStatic := (s.insts.get a).static

def idOf (s : Scheduler) (a : Nat) : Int := (s.insts.get a).id

/-- Makes a new group object. -/
def newGroup (s : Scheduler) (gs : GroupSnapshot) : Scheduler :=
  { s with objs := s.objs.alloc gs, writes := s.writes ++ [(s.objs.next, gs)] }

def modifyGroup (s : Scheduler) (o : Nat) (f : GroupSnapshot → GroupSnapshot) : Scheduler :=
  { s with objs := s.objs.modify o f, writes := s.writes ++ [(o, f (s.objs.get o))] }

/-- The routes of a group for its accounts, and the aliases that go with them. -/
def route (env : SnapshotEnv) (s : Scheduler) (gs : GroupSnapshot) (accounts : List Nat) :
    GroupSnapshot :=
  let routes := buildRoutes s.view accounts
  { gs with
    accounts
    routes
    modelAliases := env.buildModelAliases (routes.map (·.1)) (gs.upstreamRoutes.map (·.1)) }

def buildGroup (env : SnapshotEnv) (old : Int → Option Nat) (b : Rebuild) (gid : Int)
    (rows : List Account) : Rebuild :=
  let p := (rows.filter Account.routable).foldl (Placing.place env old gid)
    { insts := b.s.insts, byID := b.byID }
  let s := { b.s with insts := p.insts }
  { s := s.newGroup (s.route env {} p.accounts)
    groups := update b.groups gid (some s.objs.next)
    byID := p.byID }

def buildSnapshots (env : SnapshotEnv) (old : Int → Option Nat) (b : Rebuild)
    (m : List (Int × List Account)) : Rebuild :=
  m.foldl (fun b e => buildGroup env old b e.1 e.2) b

/-- The counter and the state go over from a predecessor of the same connection. -/
def newUpstreamSnapshot (env : SnapshotEnv) (s : Scheduler) (m : GroupUpstream)
    (old : Option UpstreamSnapshot) : UpstreamSnapshot :=
  let endpoint := env.normalizeUpstreamEndpoint ((m.upstream.map (·.baseURL)).getD "")
  let key := ((m.upstream.bind (·.upstreamKey)).map env.normalizeUpstreamKey).getD ""
  let shared := old.filter fun o =>
    o.member.groupID = m.groupID ∧ o.member.upstreamID = m.upstreamID ∧
      o.endpoint = endpoint ∧ o.key = key
  { member := m
    endpoint
    host := env.sanitizedUpstreamHost endpoint
    key
    runtime := (shared.map (·.runtime)).getD s.runtimes }

/-- The scheduler while `buildUpstreamSnapshots` runs: the map of groups, which may gain some, and
the new map of members. -/
structure UpstreamBuild where
  s : Scheduler
  groups : Int → Option Nat
  upstreams : List (Int × Nat) := []

def UpstreamBuild.modifyGroup (b : UpstreamBuild) (o : Nat) (f : GroupSnapshot → GroupSnapshot) :
    UpstreamBuild :=
  { b with s := b.s.modifyGroup o f }

/-- Adds a member to the group object `o`. -/
def addMember (env : SnapshotEnv) (old : List (Int × Nat)) (o : Nat) (b : UpstreamBuild)
    (m : GroupUpstream) : UpstreamBuild :=
  let previous := (old.lookup m.id).or
    ((old.map (·.2)).find? fun u => (b.s.ups.get u).member.groupID = m.groupID ∧
      (b.s.ups.get u).member.upstreamID = m.upstreamID)
  let us := newUpstreamSnapshot env b.s m (previous.map b.s.ups.get)
  let s := { b.s with ups := b.s.ups.alloc us, runtimes := b.s.runtimes + 1 }
  { s := s.modifyGroup o fun gs => { gs with upstreams := gs.upstreams ++ [b.s.ups.next] }
    groups := b.groups
    upstreams := (m.id, b.s.ups.next) :: b.upstreams.filter (·.1 ≠ m.id) }

/-- Sets the policy of a group and empties its pool.  Each assignment to a field of the object is a
write of its own. -/
def resetPool (o : Nat) (cfg : GroupConfig) (b : UpstreamBuild) : UpstreamBuild :=
  let b := b.modifyGroup o fun gs => { gs with routingMode := some cfg.effectiveRoutingMode }
  let b := b.modifyGroup o fun gs => { gs with allowedModels := cfg.allowedModels }
  let b := b.modifyGroup o fun gs => { gs with upstreams := [] }
  b.modifyGroup o fun gs => { gs with upstreamRoutes := [] }

def fillPool (env : SnapshotEnv) (old : List (Int × Nat)) (o : Nat) (members : List GroupUpstream)
    (b : UpstreamBuild) : UpstreamBuild :=
  let b := (members.filter GroupUpstream.routable).foldl (addMember env old o) b
  let b := b.modifyGroup o fun gs => { gs with
    upstreamRoutes := env.buildUpstreamRoutes
      (gs.upstreams.map fun u => (u, b.s.ups.get u)) gs.allowedModels }
  b.modifyGroup o fun gs => { gs with
    modelAliases := env.buildModelAliases (gs.routes.map (·.1)) (gs.upstreamRoutes.map (·.1)) }

def configureGroup (env : SnapshotEnv) (old : List (Int × Nat)) (o : Nat) (cfg : GroupConfig)
    (b : UpstreamBuild) : UpstreamBuild :=
  let b := resetPool o cfg b
  if cfg.effectiveRoutingMode ≠ .upstreams then b
  else fillPool env old o cfg.upstreamMembers b

/-- A group that the map does not have yet gets an object. -/
def configureEntry (env : SnapshotEnv) (old : List (Int × Nat)) (b : UpstreamBuild)
    (e : Int × GroupConfig) : UpstreamBuild :=
  match b.groups e.1 with
  | some o => configureGroup env old o e.2 b
  | none =>
    configureGroup env old b.s.objs.next e.2 { b with
      s := b.s.newGroup {}
      groups := update b.groups e.1 (some b.s.objs.next) }

def buildUpstreamSnapshots (env : SnapshotEnv) (old : List (Int × Nat)) (b : UpstreamBuild)
    (configs : List (Int × GroupConfig)) : UpstreamBuild :=
  configs.foldl (configureEntry env old) b

/-- Loads the pools, and publishes if that succeeds. -/
def publish (env : SnapshotEnv) (b : Rebuild) : Option (List (Int × GroupConfig)) → Scheduler
  | none => b.s
  | some configs =>
    let u := buildUpstreamSnapshots env b.s.upstreams { s := b.s, groups := b.groups } configs
    { u.s with groups := u.groups, byID := b.byID, upstreams := u.upstreams }

/-- A load that fails is `none`. -/
def reload (env : SnapshotEnv) (s : Scheduler) (accounts : Option LoadedGroups)
    (configs : Option (List (Int × GroupConfig))) : Scheduler :=
  match accounts with
  | none => s
  | some m => publish env (buildSnapshots env s.byID { s } m.groups) configs

/-- The accounts of a published group. -/
def accountsOf (s : Scheduler) (gid : Int) : List Nat :=
  ((s.groups gid).map fun o => (s.objs.get o).accounts).getD []

/-- Publishes on each of the instances a view with the groups that `v` has for its account. -/
def regroup (v : Int → List Int) (insts : Heap AccountSnapshot) (accs : List Nat) :
    Heap AccountSnapshot :=
  accs.foldl (fun h a => h.modify a fun inst => inst.withGroupIDs (v inst.id)) insts

def uniqueGroupIDs (ids : List Int) : List Int := ids.eraseDups

def removeGid (gids : List Int) (gid : Int) : List Int := gids.filter (· ≠ gid)

/-- The groups that the published view of an account lists. -/
def groupIDs (s : Scheduler) (id : Int) : List Int :=
  ((s.byID id).map fun a => (s.view a).groupIDs).getD []

def lastIndex (p : Nat → Bool) (l : List Nat) : Option Nat :=
  (l.reverse.findIdx? p).map (l.length - 1 - ·)

/-- Puts a new instance in the place that its account has in another group. -/
def replaceAccount (s : Scheduler) (accounts repl : List Nat) (ns : Nat) : List Nat :=
  match lastIndex (fun a => s.idOf a = s.idOf ns) accounts with
  | some i => repl.set i ns
  | none => repl

def replaceAccounts (s : Scheduler) (accounts newAccs : List Nat) : List Nat :=
  newAccs.foldl (s.replaceAccount accounts) accounts

/-- A copy of a group with new routes takes the group's place in the map. -/
def copyGroup (env : SnapshotEnv) (newAccs : List Nat) (b : Rebuild) (gid : Int) : Rebuild :=
  match b.groups gid with
  | none => b
  | some o =>
    let gs := b.s.objs.get o
    { b with
      s := b.s.newGroup (b.s.route env gs (b.s.replaceAccounts gs.accounts newAccs))
      groups := update b.groups gid (some b.s.objs.next) }

/-- The groups of an account other than the one that is reloaded. -/
def otherGids (s : Scheduler) (gid id : Int) : List Int := removeGid (s.groupIDs id) gid

/-- The accounts that the group had and no longer has. -/
def droppedAccounts (s : Scheduler) (gid : Int) (insts : Heap AccountSnapshot)
    (newAccs : List Nat) : List Nat :=
  (s.accountsOf gid).filter fun a =>
    (insts.get a).id ∉ newAccs.map fun ns => (insts.get ns).id

/-- The views after `InvalidateGroup` has gone over the accounts that the group has now, those it
has no longer, and the former once more. -/
def regroupedInsts (s : Scheduler) (gid : Int) (insts : Heap AccountSnapshot) (newAccs : List Nat) :
    Heap AccountSnapshot :=
  let restored := regroup (fun id => uniqueGroupIDs (gid :: s.groupIDs id)) insts newAccs
  let removed := regroup (s.otherGids gid) restored (s.droppedAccounts gid restored newAccs)
  regroup (fun id => gid :: if (s.byID id).isSome then s.otherGids gid id else []) removed newAccs

/-- An account leaves the map with its last group. -/
def regroupedByID (s : Scheduler) (gid : Int) (insts : Heap AccountSnapshot) (newAccs : List Nat) :
    Int → Option Nat :=
  let kept := (s.droppedAccounts gid insts newAccs).foldl (fun m a =>
    let id := (insts.get a).id
    if s.otherGids gid id = [] then update m id none else m) s.byID
  newAccs.foldl (fun m a => update m (insts.get a).id (some a)) kept

/-- The load of the group by itself. -/
def loadGroup (env : SnapshotEnv) (s : Scheduler) (gid : Int) (rows : List Account) : Rebuild :=
  buildSnapshots env s.byID { s } [(gid, rows)]

def newAccounts (env : SnapshotEnv) (s : Scheduler) (gid : Int) (rows : List Account) : List Nat :=
  let b := loadGroup env s gid rows
  ((b.groups gid).map fun o => (b.s.objs.get o).accounts).getD []

/-- The views and the maps after the passes over the accounts. -/
def regroupLoaded (env : SnapshotEnv) (s : Scheduler) (gid : Int) (rows : List Account) : Rebuild :=
  let b := loadGroup env s gid rows
  let newAccs := newAccounts env s gid rows
  let insts := s.regroupedInsts gid b.s.insts newAccs
  { s := { b.s with insts }
    groups := update s.groups gid (b.groups gid)
    byID := s.regroupedByID gid insts newAccs }

/-- The other groups of the accounts that were known before. -/
def otherRefs (env : SnapshotEnv) (s : Scheduler) (gid : Int) (rows : List Account) : List Int :=
  let b := regroupLoaded env s gid rows
  let known := (newAccounts env s gid rows).filter fun a => (s.byID (b.s.idOf a)).isSome
  (known.flatMap fun a => s.otherGids gid (b.s.idOf a)).dedup

/-- What `InvalidateGroup` has made before it loads the pools. -/
def rebuildLoaded (env : SnapshotEnv) (s : Scheduler) (gid : Int) (rows : List Account) : Rebuild :=
  (otherRefs env s gid rows).foldl (copyGroup env (newAccounts env s gid rows))
    (regroupLoaded env s gid rows)

def invalidateGroup (env : SnapshotEnv) (s : Scheduler) (gid : Int)
    (accounts : Option (List Account)) (configs : Option (List (Int × GroupConfig))) : Scheduler :=
  match accounts with
  | none => s
  | some rows => publish env (rebuildLoaded env s gid rows) configs

def rebuildGroups (env : SnapshotEnv) (s : Scheduler) (gids : List Int) : Scheduler :=
  let b := (gids.filter (0 < ·)).eraseDups.foldl (copyGroup env [])
    { s, groups := s.groups, byID := s.byID }
  { b.s with groups := b.groups }

/-- The part of `apply` that sets a weight. -/
def weigh (env : SnapshotEnv) (s : Scheduler) (id weight : Int) : Scheduler :=
  match s.byID id with
  | none => s
  | some a =>
    rebuildGroups env { s with insts := s.insts.modify a (·.withWeight weight) } (s.view a).groupIDs

/-- The other transitions of an account: rule actions, failures and selections. -/
def setState (s : Scheduler) (id : Int) (st : AccState) : Scheduler :=
  match s.byID id with
  | none => s
  | some a => { s with insts := s.insts.modify a fun inst => { inst with state := st } }

end Scheduler

/-- What changes the published snapshot, or an account in it. -/
inductive SnapshotOp where
  | reload (accounts : Option LoadedGroups) (configs : Option (List (Int × GroupConfig)))
  | invalidateGroup (gid : Int) (accounts : Option (List Account))
      (configs : Option (List (Int × GroupConfig)))
  | weigh (id weight : Int)
  | setState (id : Int) (st : AccState)

namespace Scheduler

def step (env : SnapshotEnv) (s : Scheduler) (op : SnapshotOp) : Scheduler :=
  let s := { s with writes := [] }
  match op with
  | .reload accounts configs => s.reload env accounts configs
  | .invalidateGroup gid accounts configs => s.invalidateGroup env gid accounts configs
  | .weigh id weight => s.weigh env id weight
  | .setState id st => s.setState id st

end Scheduler
end C4Gateway
