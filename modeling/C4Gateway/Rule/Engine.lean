import C4Gateway.Rule.Windows
import C4Gateway.Scheduler.State
import Mathlib.Data.List.Infix
import Mathlib.Data.List.Sort

/-! The rule engine.  Rules are tried in the order of their priority, and the first one that matches
decides.  `HandleEvent` asks for the window counts too; `Classify` is asked on the request path,
goes by the event's own fields alone, and says whether the event is delivered at all. -/

namespace C4Gateway

open Option

/-- The conditions of a rule; what is absent matches every event. -/
structure RuleWhen where
  kind : Option String := none
  httpStatus : Option Int := none
  errorMessageContains : Option String := none
  accountID : Option Int := none
  templateID : Option Int := none
  groupID : Option Int := none
  model : Option String := none
  httpStatusIn : List Int := []
  modelIn : List String := []
  errorMessageContainsIn : List String := []
  windowSeconds : Option Int := none
  count429GE : Option Int := none
  countFailureGE : Option Int := none
  countOKGE : Option Int := none
  countTotalGE : Option Int := none
  ratio429GE : Option Float := none
  ratioFailureGE : Option Float := none

/-- What a rule changes; what is absent stays. -/
structure RuleThen where
  status : Option AccountStatus := none
  cooldown : Option String := none
  weight : Option Int := none
  responseCode : Option Int := none
  customMessage : Option String := none
  deriving DecidableEq, Repr

/-- `Classify` goes by what is set, not by whether the cooldown parses. -/
def RuleThen.punishes (t : RuleThen) : Bool :=
  t.status.isSome || t.weight.isSome || t.cooldown.isSome

structure Rule where
  name : String := ""
  enabled : Bool := true
  priority : Int := 0
  when : RuleWhen := {}
  then_ : RuleThen := {}

/-- A result as the rules see it. -/
structure RuleEvent where
  accountID : Int
  templateID : Int := 0
  groupID : Option Int := none
  model : String := ""
  kind : ResultKind
  httpStatus : Option Int := none
  errorMessage : String := ""
  resetAt : Option Int := none
  occurredAt : Int := 0
  deriving DecidableEq, Repr

def kindFromString (s : String) : Option ResultKind :=
  if s = "ok" then some .ok
  else if s = "429" then some .err429
  else if s = "4xx" then some .err4xx
  else if s = "5xx" then some .err5xx
  else if s = "network" then some .network
  else none

/-- A set of a compiled rule; an empty list makes none. -/
def newSet {α : Type} (vals : List α) : Option (List α) := if vals.isEmpty then none else some vals

/-- The sets are read-only views of the rule's lists. -/
structure CompiledRule extends Rule where
  httpStatusSet : Option (List Int)
  modelSet : Option (List String)
  containsSet : Option (List String)
  httpStatusSet_eq : httpStatusSet = newSet when.httpStatusIn
  modelSet_eq : modelSet = newSet when.modelIn
  containsSet_eq : containsSet = newSet when.errorMessageContainsIn

def compileRule (r : Rule) : CompiledRule where
  toRule := r
  httpStatusSet := newSet r.when.httpStatusIn
  modelSet := newSet r.when.modelIn
  containsSet := newSet r.when.errorMessageContainsIn
  httpStatusSet_eq := rfl
  modelSet_eq := rfl
  containsSet_eq := rfl

def contains (s sub : String) : Bool := sub.toList <:+: s.toList

/-- All conditions but the window hold. -/
def matchBasic (ev : RuleEvent) (r : CompiledRule) : Bool :=
  r.when.kind.all (kindFromString · = some ev.kind) &&
  r.when.accountID.all (· = ev.accountID) &&
  r.when.templateID.all (· = ev.templateID) &&
  r.when.groupID.all (ev.groupID = some ·) &&
  r.when.httpStatus.all (ev.httpStatus = some ·) &&
  r.httpStatusSet.all (fun vals => ev.httpStatus.any (vals.contains ·)) &&
  r.when.model.all (· = ev.model) &&
  r.modelSet.all (·.contains ev.model) &&
  r.when.errorMessageContains.all (contains ev.errorMessage ·) &&
  r.containsSet.all (·.any (contains ev.errorMessage ·))

def ruleNeedsWindow (w : RuleWhen) : Bool :=
  w.count429GE.isSome || w.countFailureGE.isSome || w.countOKGE.isSome ||
    w.countTotalGE.isSome || w.ratio429GE.isSome || w.ratioFailureGE.isSome

def ruleWindowSeconds (w : RuleWhen) : Int :=
  match w.windowSeconds with
  | some seconds => if seconds > 0 then seconds else defaultWindowSeconds
  | none => defaultWindowSeconds

def ratioPass (numerator total : Nat) (totalGE : Option Int) (ratio : Float) : Bool :=
  totalGE.any fun (least : Int) =>
    least ≤ total && total ≠ 0 && Float.ofNat numerator / Float.ofNat total ≥ ratio

def matchWindow (w : RuleWhen) (wc : WinCounts) : Bool :=
  w.count429GE.all (fun (least : Int) => least ≤ wc.t429) &&
  w.countFailureGE.all (fun (least : Int) => least ≤ wc.failure) &&
  w.countOKGE.all (fun (least : Int) => least ≤ wc.ok) &&
  w.countTotalGE.all (fun (least : Int) => least ≤ wc.total) &&
  w.ratio429GE.all (ratioPass wc.t429 wc.total w.countTotalGE ·) &&
  w.ratioFailureGE.all (ratioPass wc.failure wc.total w.countTotalGE ·)

/-- The arguments of the apply callback after the account's id. -/
structure RuleAction where
  status : Option AccountStatus
  cooldownUntil : Option Int
  weight : Option Int
  errMsg : String
  deriving DecidableEq, Repr

/-- Some state is to be changed. -/
def RuleAction.acts (a : RuleAction) : Bool :=
  a.status.isSome || a.cooldownUntil.isSome || a.weight.isSome

section
variable (parseDuration : String → Option Int)

def cooldownOf (t : RuleThen) (ev : RuleEvent) : Option Int :=
  match t.cooldown with
  | some text => ((parseDuration text).filter (0 < ·)).map (ev.occurredAt + ·)
  | none => none

/-- `Apply`: a reset time of the provider stands in for a cooldown, or extends the one of a 429. -/
def applyThen (t : RuleThen) (ev : RuleEvent) : RuleAction where
  status := t.status
  cooldownUntil :=
    let cd := cooldownOf parseDuration t ev
    match ev.resetAt with
    | none => cd
    | some reset =>
      if t.cooldown = none ∨ (ev.kind = .err429 ∧ cd.any (· < reset)) then
        if cd.all (· < reset) then some reset else cd
      else cd
  weight := t.weight
  errMsg := ev.errorMessage

end

/-- The rules are enabled and in the order of their priority. -/
structure RuleEngine where
  rules : List CompiledRule
  needsOK : Bool
  wm : WindowMap

namespace RuleEngine

def longer (m : Int) (r : Rule) : Int :=
  match r.when.windowSeconds with
  | some seconds => if seconds > m then seconds else m
  | none => m

/-- The longest window that a rule sets, 0 for none. -/
def maxWindow (rules : List Rule) : Int := rules.foldl longer 0

def enabledRules (rows : List Rule) : List Rule :=
  (rows.filter (·.enabled)).insertionSort fun a b => a.priority ≤ b.priority

/-- `Reload` of a table that is not empty. -/
def reload (rows : List Rule) : Option RuleEngine :=
  let rules := enabledRules rows
  let needsOK := rules.any fun r => r.when.kind.all (· = "ok")
  (WindowMap.reset (wrapInt64 (maxWindow rules * second)) needsOK).map fun wm =>
    { rules := rules.map compileRule, needsOK, wm }

/-- The counts that a rule is tried with, and the windows after the look at them. -/
def windowCounts (wm : WindowMap) (ev : RuleEvent) (r : CompiledRule) : WinCounts × WindowMap :=
  if ruleNeedsWindow r.when then
    wm.snapshot ev.accountID (ruleWindowSeconds r.when) ev.occurredAt
  else ({}, wm)

/-- The loop of `HandleEvent` over the rules. -/
def firstMatch (ev : RuleEvent) : WindowMap → List CompiledRule → WindowMap × Option CompiledRule
  | wm, [] => (wm, none)
  | wm, r :: rules =>
    let (wc, wm) := windowCounts wm ev r
    if matchBasic ev r && matchWindow r.when wc then (wm, some r) else firstMatch ev wm rules

def stamp (now : Int) (ev : RuleEvent) : RuleEvent :=
  if ev.occurredAt = 0 then { ev with occurredAt := now } else ev

/-- The event counts in the windows before the rules are tried. -/
def counted (e : RuleEngine) (ev : RuleEvent) : WindowMap :=
  e.wm.add ev.accountID ev.kind ev.occurredAt

def handleEvent (parseDuration : String → Option Int) (e : RuleEngine) (now : Int)
    (ev : RuleEvent) : RuleEngine × Option RuleAction :=
  let ev := stamp now ev
  let (wm, r) := firstMatch ev (e.counted ev) e.rules
  ({ e with wm }, r.map fun r => applyThen parseDuration r.then_ ev)

def classify (e : RuleEngine) (ev : RuleEvent) : RuleThen × Bool :=
  match e.rules.find? (matchBasic ev) with
  | some r => (r.then_, r.then_.punishes)
  | none =>
    if ev.kind = .ok then ({}, false)
    else ({ responseCode := some 502, customMessage := some "upstream rejected request" }, false)

end RuleEngine

/-- What the callback is called with changes state. -/
def RuleThen.actsOn (parseDuration : String → Option Int) (t : RuleThen) (ev : RuleEvent) : Bool :=
  t.status.isSome || t.weight.isSome ||
    match t.cooldown with
    | some text => (parseDuration text).any (0 < ·)
    | none => ev.resetAt.isSome

variable (parseDuration : String → Option Int) (t : RuleThen) (ev : RuleEvent)

theorem isSome_cooldownUntil : (applyThen parseDuration t ev).cooldownUntil.isSome =
      match t.cooldown with
      | some text => (parseDuration text).any (0 < ·)
      | none => ev.resetAt.isSome := by
  cases hcd : t.cooldown with
  | none =>
    simp only [applyThen, cooldownOf, hcd]
    cases ev.resetAt <;> simp
  | some text =>
    have hsome : (cooldownOf parseDuration t ev).isSome = (parseDuration text).any (0 < ·) := by
      simp only [cooldownOf, hcd]
      cases parseDuration text with
      | none => rfl
      | some d => by_cases hd : 0 < d <;> simp
    simp only [applyThen, hcd, ← hsome]
    cases hreset : ev.resetAt with
    | none => rfl
    | some reset =>
      -- The reset time only replaces a cooldown that is there.
      dsimp only
      cases cooldownOf parseDuration t ev with
      | none => simp
      | some cd => split <;> [split; skip] <;> rfl

theorem acts_applyThen : (applyThen parseDuration t ev).acts = t.actsOn parseDuration ev := by
  unfold RuleAction.acts RuleThen.actsOn
  rw [isSome_cooldownUntil, Bool.or_assoc, Bool.or_assoc]
  congr 1
  exact Bool.or_comm ..

/-- A rule without a state action still acts through the reset time of the event. -/
theorem RuleThen.actsOn_of_not_punishes {parseDuration : String → Option Int} {t : RuleThen}
    (h : ¬ t.punishes) (ev : RuleEvent) : t.actsOn parseDuration ev = ev.resetAt.isSome := by
  simp only [RuleThen.punishes, Bool.or_eq_true, not_or, Bool.not_eq_true, isSome_eq_false_iff,
    isNone_iff_eq_none] at h
  obtain ⟨⟨hstatus, hweight⟩, hcooldown⟩ := h
  simp [RuleThen.actsOn, hstatus, hweight, hcooldown]

namespace RuleEngine

def hits (wm : WindowMap) (ev : RuleEvent) (r : CompiledRule) : Bool :=
  matchBasic ev r && matchWindow r.when (windowCounts wm ev r).1

theorem windowCounts_snd {wm : WindowMap} {ev : RuleEvent}
    (h : wm.advanceTo ev.occurredAt = wm) (r : CompiledRule) : (windowCounts wm ev r).2 = wm := by
  unfold windowCounts
  split
  · rw [WindowMap.snapshot_snd, h]
  · rfl

/-- The looks at the windows do not move them, so that every rule is tried with the same ones. -/
theorem firstMatch_eq {wm : WindowMap} {ev : RuleEvent} (h : wm.advanceTo ev.occurredAt = wm)
    (rules : List CompiledRule) : firstMatch ev wm rules = (wm, rules.find? (hits wm ev)) := by
  induction rules with
  | nil => rfl
  | cons r rules ih =>
    rw [List.find?_cons]
    simp only [firstMatch, windowCounts_snd h, hits]
    split
    next hhit =>
      rw [hhit]
    next hmiss =>
      rw [ih, Bool.eq_false_iff.mpr hmiss]

theorem handleEvent_eq (e : RuleEngine) (now : Int) (ev : RuleEvent) :
    e.handleEvent parseDuration now ev = ({ e with wm := e.counted (stamp now ev) },
      (e.rules.find? (hits (e.counted (stamp now ev)) (stamp now ev))).map
        fun r => applyThen parseDuration r.then_ (stamp now ev)) := by
  have hstay : (e.counted (stamp now ev)).advanceTo (stamp now ev).occurredAt =
      e.counted (stamp now ev) := WindowMap.advanceTo_add ..
  simp [handleEvent, firstMatch_eq hstay]

/-- `r` is the first rule whose fields match the event, it has no state action, and `post` are the
rules after it. -/
structure FirstPassive (e : RuleEngine) (ev : RuleEvent) (r : CompiledRule)
    (post : List CompiledRule) : Prop where
  first : ∃ pre, e.rules = pre ++ r :: post ∧ ∀ q ∈ pre, ¬ matchBasic ev q
  fields : matchBasic ev r
  passive : ¬ r.then_.punishes

theorem classify_eq_true_iff (e : RuleEngine) (ev : RuleEvent) :
    (e.classify ev).2 = true ↔ ∃ r, e.rules.find? (matchBasic ev) = some r ∧ r.then_.punishes := by
  unfold classify
  split
  next r hr =>
    simp [hr]
  next hnone =>
    rw [hnone]
    split <;> simp

/-- After the first rule whose fields match, only its window counts and the later rules matter. -/
theorem FirstPassive.find?_hits {e : RuleEngine} {ev ev' : RuleEvent} {r : CompiledRule}
    {post : List CompiledRule} (h : e.FirstPassive ev r post) (wm : WindowMap)
    (hev : matchBasic ev' = matchBasic ev) :
    e.rules.find? (hits wm ev') =
      if matchWindow r.when (windowCounts wm ev' r).1 then some r
      else post.find? (hits wm ev') := by
  obtain ⟨⟨pre, hrules, hpre⟩, hfields, -⟩ := h
  have hnone : pre.find? (hits wm ev') = none := by
    refine List.find?_eq_none.mpr fun q hq hhit => hpre q hq ?_
    simp only [hits, Bool.and_eq_true, hev] at hhit
    exact hhit.1
  have hhit : hits wm ev' r = matchWindow r.when (windowCounts wm ev' r).1 := by
    simp [hits, hev, hfields]
  rw [hrules, List.find?_append, hnone]
  split <;> simp_all

theorem matchBasic_stamp (now : Int) (ev : RuleEvent) :
    matchBasic (stamp now ev) = matchBasic ev := by
  unfold stamp
  split <;> rfl

theorem resetAt_stamp (now : Int) (ev : RuleEvent) : (stamp now ev).resetAt = ev.resetAt := by
  unfold stamp
  split <;> rfl

/-- There is such a rule if the fields of some rule match and `Classify` holds the event back. -/
theorem exists_firstPassive_iff (e : RuleEngine) (ev : RuleEvent) :
    (∃ r post, e.FirstPassive ev r post) ↔
      (e.classify ev).2 ≠ true ∧ ∃ r ∈ e.rules, matchBasic ev r := by
  constructor
  · rintro ⟨r, post, ⟨pre, hrules, hpre⟩, hfields, hpassive⟩
    have hfind : e.rules.find? (matchBasic ev) = some r :=
      List.find?_eq_some_iff_append.mpr ⟨hfields, pre, post, hrules, by simpa using hpre⟩
    refine ⟨fun hclass => ?_, r, by simp [hrules], hfields⟩
    obtain ⟨r', hfind', hpunish⟩ := (classify_eq_true_iff e ev).mp hclass
    obtain rfl := some_inj.mp (hfind.symm.trans hfind')
    exact hpassive hpunish
  · rintro ⟨hclass, r, hr, hfields⟩
    obtain ⟨first, hfirst⟩ := isSome_iff_exists.mp
      (List.find?_isSome.mpr ⟨r, hr, hfields⟩)
    obtain ⟨hmatch, pre, post, hrules, hpre⟩ := List.find?_eq_some_iff_append.mp hfirst
    refine ⟨first, post, ⟨pre, hrules, by simpa using hpre⟩, hmatch, fun hpunish => ?_⟩
    exact hclass ((classify_eq_true_iff e ev).mpr ⟨first, hfirst, hpunish⟩)

/-- `Classify` lets every event through that the worker acts on, except behind a first rule without
a state action: when it decides, the event may carry a reset time, and when its counts are not met,
a later rule may act. -/
theorem classify_of_acts_iff (parseDuration : String → Option Int) (e : RuleEngine) (now : Int)
    (ev : RuleEvent) :
    (((e.handleEvent parseDuration now ev).2.any (·.acts)) → (e.classify ev).2 = true) ↔
      ∀ r post, e.FirstPassive ev r post →
        if matchWindow r.when (windowCounts (e.counted (stamp now ev)) (stamp now ev) r).1 then
          ev.resetAt = none
        else
          ∀ q, post.find? (hits (e.counted (stamp now ev)) (stamp now ev)) = some q →
            ¬ q.then_.actsOn parseDuration (stamp now ev) := by
  have hacts : (e.handleEvent parseDuration now ev).2.any (·.acts) =
      (e.rules.find? (hits (e.counted (stamp now ev)) (stamp now ev))).any
        fun r => r.then_.actsOn parseDuration (stamp now ev) := by
    rw [handleEvent_eq]
    simp [any_map, acts_applyThen]
  rw [hacts]
  constructor
  · intro h r post hfirst
    have hnot : ¬ (e.rules.find? (hits (e.counted (stamp now ev)) (stamp now ev))).any
        fun r => r.then_.actsOn parseDuration (stamp now ev) := fun hacts =>
      ((exists_firstPassive_iff e ev).mp ⟨r, post, hfirst⟩).1 (h hacts)
    rw [hfirst.find?_hits _ (matchBasic_stamp now ev)] at hnot
    split
    next hmet =>
      rw [if_pos hmet, any_some, RuleThen.actsOn_of_not_punishes hfirst.passive,
        resetAt_stamp] at hnot
      simpa using hnot
    next hunmet =>
      rw [if_neg hunmet] at hnot
      intro q hq hqacts
      exact hnot (by simp [hq, hqacts])
  · intro h hacts
    by_contra hclass
    obtain ⟨q, hq, hqacts⟩ :
        ∃ q, e.rules.find? (hits (e.counted (stamp now ev)) (stamp now ev)) = some q ∧
          q.then_.actsOn parseDuration (stamp now ev) := by
      cases hfind : e.rules.find? (hits (e.counted (stamp now ev)) (stamp now ev)) with
      | none => rw [hfind] at hacts; cases hacts
      | some q => exact ⟨q, rfl, by simpa [hfind] using hacts⟩
    have hmatch : ∃ r ∈ e.rules, matchBasic ev r := by
      refine ⟨q, List.mem_of_find?_eq_some hq, ?_⟩
      have hhit := List.find?_some hq
      simp only [hits, Bool.and_eq_true, matchBasic_stamp] at hhit
      exact hhit.1
    obtain ⟨r, post, hfirst⟩ := (exists_firstPassive_iff e ev).mpr ⟨hclass, hmatch⟩
    have hcond := h r post hfirst
    rw [hfirst.find?_hits _ (matchBasic_stamp now ev)] at hq
    split at hq
    next hmet =>
      obtain rfl := some_inj.mp hq
      rw [if_pos hmet] at hcond
      rw [RuleThen.actsOn_of_not_punishes hfirst.passive, resetAt_stamp, hcond] at hqacts
      cases hqacts
    next hunmet =>
      rw [if_neg hunmet] at hcond
      exact hcond q hq hqacts

/-- Rewrites the code of a server error once there are five of them in a minute. -/
def rewriteBurst : Rule where
  priority := 10
  when := { kind := some "5xx", windowSeconds := some 60, countFailureGE := some 5 }
  then_ := { responseCode := some 503 }

/-- The rule for server errors that an empty table is seeded with. -/
def seed5xx : Rule where
  name := "seed-5xx"
  priority := 20
  when := { kind := some "5xx" }
  then_ :=
    { status := some .unhealthy
      cooldown := some "10m"
      responseCode := some 502
      customMessage := some "Upstream request failed" }

/-- The first server error after a reload sets the account aside for ten minutes, and `Classify`
goes by a rule that only rewrites the code and that does not fire. -/
theorem classify_masked_by_window :
    let ev : RuleEvent := { accountID := 1, kind := .err5xx, occurredAt := 100 * second }
    let parseDuration := fun text => if text = "10m" then some (600 * second) else none
    ∃ e, reload [rewriteBurst, seed5xx] = some e ∧
      (e.handleEvent parseDuration 0 ev).2 =
        some ⟨some .unhealthy, some (700 * second), none, ""⟩ ∧
      e.classify ev = (rewriteBurst.then_, false) := by
  refine ⟨_, rfl, ?_, ?_⟩ <;> decide

end RuleEngine
end C4Gateway
