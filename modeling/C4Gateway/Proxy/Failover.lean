import C4Gateway.Domain
import Mathlib.Data.List.Nodup

/-! The loop of attempts for one request.  An attempt that fails releases its selection and selects
another target; where a target does not speak the protocol, the loop goes on to the next of the
configured fallback protocols.  The scheduler, the attempts and the price check are arbitrary. -/

namespace C4Gateway

open List

/-- A selection; `id` is the pointer. -/
structure Selection where
  id : Nat
  targetID : Int
  deriving DecidableEq, Repr

/-- Another protocol to try. -/
structure ProtocolFallback where
  format : RequestFormat
  converts : Bool -- whether `ConvertRequest` accepts the request
  deriving DecidableEq, Repr

/-- What `attempt.call` returns.  A response that was handled has had its selection released;
`capability` is the verdict of `isProtocolCapabilityError` on one that was not. -/
inductive AttemptOutcome where
  | handled
  | failed (code : Int) (capability : Bool)
  deriving DecidableEq, Repr

/-- The surroundings of the loop: the price check, the call and the client's context in each turn,
and the answer of the scheduler to each call of `SelectExcluding`. -/
structure FailoverEnv where
  failoverAttempts : Int
  priced : Nat → Bool
  call : Nat → AttemptOutcome
  cancelled : Nat → Bool
  select : Nat → RequestFormat → List Int → Option Int

/-- The selections obtained, those whose slot was given back (once for each time), the number of
calls of `SelectExcluding`, and the attempts by protocol and target. -/
structure FailoverLog where
  obtained : List Selection
  released : List Nat := []
  selects : Nat := 0
  attempts : List (RequestFormat × Int) := []
  deriving DecidableEq, Repr

namespace FailoverLog

def releaseSelection (w : FailoverLog) (sel : Selection) : FailoverLog :=
  if sel.id ∈ w.released then w else { w with released := w.released ++ [sel.id] }

def selectExcluding (w : FailoverLog) (env : FailoverEnv) (format : RequestFormat)
    (excluded : List Int) : FailoverLog × Option Selection :=
  let w' := { w with selects := w.selects + 1 }
  match env.select w.selects format excluded with
  | none => (w', none)
  | some targetID =>
    let sel := ⟨w.obtained.length, targetID⟩
    ({ w' with obtained := w.obtained ++ [sel] }, some sel)

def attempt (w : FailoverLog) (format : RequestFormat) (sel : Selection) : FailoverLog :=
  { w with attempts := w.attempts ++ [(format, sel.targetID)] }

end FailoverLog

def excludeAttemptedExcept (attempted : List Int) (allowed : Int) : List Int :=
  attempted.foldl (fun excluded candidate =>
    if candidate ≠ allowed ∧ candidate ∉ excluded then excluded ++ [candidate] else excluded) []

/-- The selection of a fallback, and the fallbacks after it. -/
structure Switch where
  sel : Selection
  format : RequestFormat
  rest : List ProtocolFallback

/-- The fallbacks in turn, until one gives a selection.  The target that failed may serve another
protocol, the others that were attempted may not. -/
def switchProtocol (env : FailoverEnv) (attempted : List Int) (failed : Selection)
    (w : FailoverLog) : List ProtocolFallback → FailoverLog × Option Switch
  | [] => (w, none)
  | next :: rest =>
    if !next.converts then switchProtocol env attempted failed w rest
    else
      match w.selectExcluding env next.format attempted with
      | (w, some sel) => (w, some ⟨sel, next.format, rest⟩)
      | (w, none) =>
        match w.selectExcluding env next.format
            (excludeAttemptedExcept attempted failed.targetID) with
        | (w, some sel) => (w, some ⟨sel, next.format, rest⟩)
        | (w, none) => switchProtocol env attempted failed w rest

/-- How a request leaves the loop. -/
inductive FailoverExit where
  | unpriced
  | handled
  | aborted
  | rejected
  | exhausted
  deriving DecidableEq, Repr

/-- The variables of the loop at the start of a turn. -/
structure Turn where
  i : Nat := 0
  attemptLimit : Int
  fallbacks : List ProtocolFallback
  attempted : List Int
  selectFormat : RequestFormat
  sel : Selection
  lastSel : Selection
  log : FailoverLog

namespace Turn

def start (env : FailoverEnv) (selectFormat : RequestFormat) (fallbacks : List ProtocolFallback)
    (targetID : Int) : Turn where
  attemptLimit := env.failoverAttempts
  fallbacks := fallbacks
  attempted := [targetID]
  selectFormat := selectFormat
  sel := ⟨0, targetID⟩
  lastSel := ⟨0, targetID⟩
  log := { obtained := [⟨0, targetID⟩] }

/-- The end of a turn after a failure that another target may not repeat. -/
def tail (env : FailoverEnv) (t : Turn) (w : FailoverLog) : Turn ⊕ FailoverExit × FailoverLog :=
  let w := w.releaseSelection t.sel
  -- The last turn does not select for a turn that will not be.
  if t.i + 1 ≥ env.failoverAttempts then .inr (.exhausted, w.releaseSelection t.sel)
  else
    match w.selectExcluding env t.selectFormat t.attempted with
    | (w, none) => .inr (.exhausted, w.releaseSelection t.sel)
    | (w, some sel) =>
      .inl { t with
        i := t.i + 1
        attempted := t.attempted ++ [sel.targetID]
        sel := sel
        lastSel := t.sel
        log := w }

/-- The branch for a response that is final unless another protocol is left to try. -/
def final (env : FailoverEnv) (t : Turn) (protocolCapability : Bool) (w : FailoverLog) :
    Turn ⊕ FailoverExit × FailoverLog :=
  if protocolCapability then
    match switchProtocol env t.attempted t.sel (w.releaseSelection t.sel) t.fallbacks with
    | (w, some s) =>
      .inl {
        i := t.i + 1
        attemptLimit := if t.i + 1 ≥ t.attemptLimit then t.attemptLimit + 1 else t.attemptLimit
        fallbacks := s.rest
        attempted :=
          if s.sel.targetID ∈ t.attempted then t.attempted else t.attempted ++ [s.sel.targetID]
        selectFormat := s.format
        sel := s.sel
        lastSel := s.sel
        log := w }
    | (w, none) => .inr (.rejected, w.releaseSelection t.sel)
  else .inr (.rejected, w.releaseSelection t.sel)

/-- One turn: the variables of the next one, or the exit. -/
def next (env : FailoverEnv) (t : Turn) : Turn ⊕ FailoverExit × FailoverLog :=
  if !env.priced t.i then .inr (.unpriced, t.log.releaseSelection t.sel)
  else
    let w := t.log.attempt t.selectFormat t.sel
    match env.call t.i with
    | .handled => .inr (.handled, w.releaseSelection t.sel)
    | .failed code capability =>
      let protocolCapability := !t.fallbacks.isEmpty && capability
      if code = 429 then t.tail env w
      else if (code ≥ 500 ∨ code = 0) ∧ !protocolCapability then
        if code = 0 ∧ env.cancelled t.i then .inr (.aborted, w.releaseSelection t.sel)
        else t.tail env w
      else t.final env protocolCapability w

/-- The turns and fallbacks that are left. -/
def budget (t : Turn) : Nat := (t.attemptLimit - t.i).toNat + t.fallbacks.length

end Turn

namespace FailoverLog

/-- What a call of `SelectExcluding` does to the log. -/
inductive Selects (w : FailoverLog) : FailoverLog → Option Selection → Prop
  | nothing (selects : Nat) : Selects w { w with selects } none
  | obtains (selects : Nat) (targetID : Int) :
    Selects w { w with selects, obtained := w.obtained ++ [⟨w.obtained.length, targetID⟩] }
      (some ⟨w.obtained.length, targetID⟩)

theorem Selects.trans {w w' w'' : FailoverLog} {r : Option Selection}
    (h : Selects w w' none) (h' : Selects w' w'' r) : Selects w w'' r := by
  cases h
  cases h'
  · exact .nothing _
  · exact .obtains _ _

theorem selects_selectExcluding {w w' : FailoverLog} {env : FailoverEnv} {format : RequestFormat}
    {excluded : List Int} {r : Option Selection}
    (h : w.selectExcluding env format excluded = (w', r)) : Selects w w' r := by
  simp only [selectExcluding] at h
  split at h <;> cases h
  · exact .nothing _
  · exact .obtains _ _

theorem not_mem_of_selectExcluding {w w' : FailoverLog} {env : FailoverEnv}
    {format : RequestFormat} {excluded : List Int} {sel : Selection}
    (honours : ∀ k format excluded targetID,
      env.select k format excluded = some targetID → targetID ∉ excluded)
    (h : w.selectExcluding env format excluded = (w', some sel)) : sel.targetID ∉ excluded := by
  simp only [selectExcluding] at h
  split at h
  · cases h
  · next hselect =>
    cases h
    exact honours _ _ _ _ hselect

end FailoverLog

/-- A switch takes its fallback, and those before it, off the list. -/
theorem switchProtocol_spec {env : FailoverEnv} {attempted : List Int} {failed : Selection}
    {w w' : FailoverLog} {fallbacks : List ProtocolFallback} {r : Option Switch}
    (h : switchProtocol env attempted failed w fallbacks = (w', r)) :
    w.Selects w' (r.map Switch.sel) ∧
    ∀ s, r = some s →
      ∃ skipped next, fallbacks = skipped ++ next :: s.rest ∧ next.format = s.format := by
  induction fallbacks generalizing w with
  | nil =>
    cases h
    exact ⟨.nothing _, nofun⟩
  | cons next rest ih =>
    have hskip : ∀ {w₁}, w.Selects w₁ none →
        switchProtocol env attempted failed w₁ rest = (w', r) →
        w.Selects w' (r.map Switch.sel) ∧ ∀ s, r = some s →
          ∃ skipped next', next :: rest = skipped ++ next' :: s.rest ∧
            next'.format = s.format := by
      intro w₁ hs h
      refine ⟨hs.trans (ih h).1, fun s hs => ?_⟩
      obtain ⟨skipped, next', rfl, hformat⟩ := (ih h).2 s hs
      exact ⟨next :: skipped, next', rfl, hformat⟩
    simp only [switchProtocol] at h
    split at h
    · exact hskip (.nothing _) h
    split at h
    next heq =>
      cases h
      exact ⟨FailoverLog.selects_selectExcluding heq, by rintro s ⟨⟩; exact ⟨[], next, rfl, rfl⟩⟩
    next heq =>
      have hfirst := FailoverLog.selects_selectExcluding heq
      split at h
      next heq' =>
        cases h
        exact ⟨hfirst.trans (FailoverLog.selects_selectExcluding heq'),
          by rintro s ⟨⟩; exact ⟨[], next, rfl, rfl⟩⟩
      next heq' => exact hskip (hfirst.trans (FailoverLog.selects_selectExcluding heq')) h

variable {env : FailoverEnv} {t t' : Turn}

namespace Turn

/-- A turn that goes on to another one has failed over, or has switched the protocol. -/
inductive Continues (env : FailoverEnv) (t : Turn) : Turn → Prop
  | selected (w : FailoverLog) (sel : Selection) (hi : t.i + 1 < env.failoverAttempts)
    (hselect : ((t.log.attempt t.selectFormat t.sel).releaseSelection t.sel).selectExcluding env
      t.selectFormat t.attempted = (w, some sel)) :
    Continues env t { t with
      i := t.i + 1, attempted := t.attempted ++ [sel.targetID], sel := sel, lastSel := t.sel
      log := w }
  | switched (w : FailoverLog) (s : Switch)
    (hswitch : switchProtocol env t.attempted t.sel
      ((t.log.attempt t.selectFormat t.sel).releaseSelection t.sel) t.fallbacks = (w, some s)) :
    Continues env t {
      i := t.i + 1
      attemptLimit := if t.i + 1 ≥ t.attemptLimit then t.attemptLimit + 1 else t.attemptLimit
      fallbacks := s.rest
      attempted :=
        if s.sel.targetID ∈ t.attempted then t.attempted else t.attempted ++ [s.sel.targetID]
      selectFormat := s.format
      sel := s.sel
      lastSel := s.sel
      log := w }

theorem continues_of_tail (h : t.tail env (t.log.attempt t.selectFormat t.sel) = .inl t') :
    Continues env t t' := by
  simp only [tail] at h
  split at h
  · cases h
  · next hi =>
    split at h
    · cases h
    · next hselect =>
      cases h
      exact .selected _ _ (by omega) hselect

theorem continues_of_final {protocolCapability : Bool}
    (h : t.final env protocolCapability (t.log.attempt t.selectFormat t.sel) = .inl t') :
    Continues env t t' := by
  simp only [final] at h
  split at h
  · split at h
    · next hswitch =>
      cases h
      exact .switched _ _ hswitch
    · cases h
  · cases h

theorem continues_of_next (h : t.next env = .inl t') : Continues env t t' := by
  simp only [next] at h
  split at h
  · cases h
  · split at h
    · cases h
    · split at h
      · exact continues_of_tail h
      · split at h
        · split_ifs at h
          exact continues_of_tail h
        · exact continues_of_final h

theorem Continues.budget_lt (h : Continues env t t') (hi : t.i < t.attemptLimit) :
    t'.budget < t.budget := by
  cases h with
  | selected =>
    simp only [budget]
    omega
  | switched w s hswitch =>
    obtain ⟨skipped, next, heq, -⟩ := (switchProtocol_spec hswitch).2 s rfl
    simp only [budget, heq, length_append, length_cons]
    split <;> omega

end Turn

/-- The loop.  After the last turn the selection that is then the last one is released. -/
def failoverLoop (env : FailoverEnv) (t : Turn) : FailoverExit × FailoverLog :=
  if hi : t.i < t.attemptLimit then
    match hnext : t.next env with
    | .inl t' =>
      have := (Turn.continues_of_next hnext).budget_lt hi
      failoverLoop env t'
    | .inr r => r
  else (.exhausted, t.log.releaseSelection t.lastSel)
termination_by t.budget

variable {r : FailoverExit × FailoverLog}

theorem failoverLoop_next (hi : t.i < t.attemptLimit) :
    failoverLoop env t = (t.next env).elim (failoverLoop env) id := by
  rw [failoverLoop, dif_pos hi]
  split <;> simp_all

namespace FailoverLog

variable {w w' : FailoverLog} {sel : Selection}

/-- The selections are numbered, and only obtained ones are released, each at most once. -/
structure Books (w : FailoverLog) : Prop where
  ids : w.obtained.map Selection.id = List.range w.obtained.length
  once : w.released.Nodup
  known : ∀ id ∈ w.released, id < w.obtained.length

/-- Every slot that was obtained is released. -/
structure Settled (w : FailoverLog) : Prop extends Books w where
  all : ∀ s ∈ w.obtained, s.id ∈ w.released

/-- Every selection but `sel` has been released. -/
structure Holds (w : FailoverLog) (sel : Selection) : Prop extends Books w where
  obtained : sel ∈ w.obtained
  held : sel.id ∉ w.released
  others : ∀ s ∈ w.obtained, s ≠ sel → s.id ∈ w.released

theorem Books.id_lt (h : w.Books) (hsel : sel ∈ w.obtained) : sel.id < w.obtained.length := by
  have hmem : sel.id ∈ w.obtained.map Selection.id := mem_map_of_mem hsel
  rw [h.ids] at hmem
  exact mem_range.mp hmem

theorem Settled.count (h : w.Settled) : ∀ s ∈ w.obtained, w.released.count s.id = 1 :=
  fun s hs => count_eq_one_of_mem h.once (h.all s hs)

theorem Settled.releaseSelection (h : w.Settled) (hsel : sel ∈ w.obtained) :
    (w.releaseSelection sel).Settled := by
  rw [FailoverLog.releaseSelection, if_pos (h.all sel hsel)]
  exact h

theorem Holds.releaseSelection (h : w.Holds sel) : (w.releaseSelection sel).Settled := by
  rw [FailoverLog.releaseSelection, if_neg h.held]
  refine ⟨⟨h.ids, ?_, ?_⟩, fun s hs => ?_⟩
  · exact h.once.append (nodup_singleton _) (by simpa using h.held)
  · simp only [mem_append, mem_singleton]
    rintro id (hid | rfl)
    · exact h.known id hid
    · exact h.id_lt h.obtained
  · by_cases heq : s = sel
    · simp [heq]
    · simp [h.others s hs heq]

theorem Holds.attempt (h : w.Holds sel) (format : RequestFormat) :
    (w.attempt format sel).Holds sel :=
  { h with }

theorem Settled.of_selects_none (h : w.Settled) (hs : w.Selects w' none) : w'.Settled := by
  cases hs
  exact { h with }

theorem Settled.holds_of_selects (h : w.Settled) (hs : w.Selects w' (some sel)) :
    w'.Holds sel := by
  cases hs
  refine ⟨⟨?_, h.once, fun id hid => ?_⟩, by simp, fun hmem => ?_, fun s hs hne => ?_⟩
  · simp [range_succ, h.ids]
  · have := h.known id hid
    simp only [length_append]
    omega
  · exact Nat.lt_irrefl _ (h.known _ hmem)
  · simp only [mem_append, mem_singleton] at hs
    exact h.all s (hs.resolve_right hne)

@[simp] theorem releaseSelection_attempts (w : FailoverLog) (sel : Selection) :
    (w.releaseSelection sel).attempts = w.attempts := by
  unfold releaseSelection
  split <;> rfl

@[simp] theorem releaseSelection_obtained (w : FailoverLog) (sel : Selection) :
    (w.releaseSelection sel).obtained = w.obtained := by
  unfold releaseSelection
  split <;> rfl

theorem Selects.subset {r : Option Selection} (hs : w.Selects w' r) : w.obtained ⊆ w'.obtained := by
  cases hs <;> simp

theorem Selects.attempts {r : Option Selection} (hs : w.Selects w' r) :
    w'.attempts = w.attempts := by
  cases hs <;> rfl

end FailoverLog

namespace Turn

variable {w : FailoverLog}

/-- At an exit no selection is held, and the attempt of the turn is the only new one. -/
structure Exits (t : Turn) (w : FailoverLog) : Prop where
  settled : w.Settled
  attempts : w.attempts = t.log.attempts ∨
    w.attempts = t.log.attempts ++ [(t.selectFormat, t.sel.targetID)]

theorem exits_release (h : t.log.Holds t.sel) :
    t.Exits ((t.log.attempt t.selectFormat t.sel).releaseSelection t.sel) :=
  ⟨(h.attempt _).releaseSelection, .inr (by simp [FailoverLog.attempt])⟩

theorem Exits.release (h : t.Exits w) (hsel : t.sel ∈ w.obtained) :
    t.Exits (w.releaseSelection t.sel) :=
  ⟨h.settled.releaseSelection hsel, by simpa using h.attempts⟩

section
variable (h : t.log.Holds t.sel)
include h

/-- A selection that is sought in vain after the release leaves nothing to settle. -/
theorem exits_of_selects_none
    (hs : ((t.log.attempt t.selectFormat t.sel).releaseSelection t.sel).Selects w none) :
    t.Exits (w.releaseSelection t.sel) := by
  have hrelease := exits_release h
  refine Exits.release ⟨hrelease.settled.of_selects_none hs, ?_⟩ (hs.subset ?_)
  · rw [hs.attempts]
    exact hrelease.attempts
  · simpa [FailoverLog.attempt] using h.obtained

theorem exits_of_tail (hr : t.tail env (t.log.attempt t.selectFormat t.sel) = .inr r) :
    t.Exits r.2 := by
  simp only [tail] at hr
  split at hr
  · cases hr
    exact (exits_release h).release (by simpa [FailoverLog.attempt] using h.obtained)
  · split at hr
    · next hselect =>
      cases hr
      exact exits_of_selects_none h (FailoverLog.selects_selectExcluding hselect)
    · cases hr

theorem exits_of_final {protocolCapability : Bool}
    (hr : t.final env protocolCapability (t.log.attempt t.selectFormat t.sel) = .inr r) :
    t.Exits r.2 := by
  simp only [final] at hr
  split at hr
  · split at hr
    · cases hr
    · next hswitch =>
      cases hr
      exact exits_of_selects_none h (switchProtocol_spec hswitch).1
  · cases hr
    exact exits_release h

theorem exits_of_next (hr : t.next env = .inr r) : t.Exits r.2 := by
  simp only [next] at hr
  split at hr
  · cases hr
    exact ⟨h.releaseSelection, .inl (by simp)⟩
  · split at hr
    · cases hr
      exact exits_release h
    · split at hr
      · exact exits_of_tail h hr
      · split at hr
        · split at hr
          · cases hr
            exact exits_release h
          · exact exits_of_tail h hr
        · exact exits_of_final h hr

end

/-- What holds at the start of each turn; `n` is the number of fallbacks at the start. -/
structure Inv (env : FailoverEnv) (n : Nat) (t : Turn) : Prop where
  holds : t.log.Holds t.sel
  last : t.i < t.attemptLimit ∨ t.lastSel = t.sel
  turns : t.log.attempts.length ≤ t.i
  within : t.i + t.fallbacks.length ≤ max env.failoverAttempts 0 + n
  limit : t.attemptLimit + t.fallbacks.length ≤ max env.failoverAttempts 0 + n
  atLeast : env.failoverAttempts ≤ t.attemptLimit
  attempted : ∀ a ∈ t.log.attempts, a.2 ∈ t.attempted
  own : t.sel.targetID ∈ t.attempted
  fresh : (t.selectFormat, t.sel.targetID) ∉ t.log.attempts
  once : t.log.attempts.Nodup
  formats : (t.selectFormat :: t.fallbacks.map ProtocolFallback.format).Nodup
  unused : ∀ a ∈ t.log.attempts, a.1 ∉ t.fallbacks.map ProtocolFallback.format

theorem inv_start (selectFormat : RequestFormat) (fallbacks : List ProtocolFallback)
    (targetID : Int) (hformats : (selectFormat :: fallbacks.map ProtocolFallback.format).Nodup) :
    Inv env fallbacks.length (start env selectFormat fallbacks targetID) where
  holds := ⟨⟨rfl, by simp [start], by simp [start]⟩, by simp [start], by simp [start],
    by simp [start]⟩
  last := .inr rfl
  turns := by simp [start]
  within := by simp [start]
  limit := by simp [start]
  atLeast := Int.le_refl _
  attempted := nofun
  own := by simp [start]
  fresh := nofun
  once := by simp [start]
  formats := hformats
  unused := nofun

/-- The attempts once the one of this turn is made. -/
structure Attempts (t : Turn) (attempts : List (RequestFormat × Int)) : Prop where
  turns : attempts.length ≤ t.i + 1
  attempted : ∀ a ∈ attempts, a.2 ∈ t.attempted
  once : attempts.Nodup
  unused : ∀ a ∈ attempts, a.1 ∉ t.fallbacks.map ProtocolFallback.format

theorem Inv.attempts {n : Nat} (h : Inv env n t) :
    t.Attempts (t.log.attempts ++ [(t.selectFormat, t.sel.targetID)]) := by
  refine ⟨?_, ?_, ?_, ?_⟩
  · have := h.turns
    simp only [length_append, length_singleton]
    omega
  · simp only [mem_append, mem_singleton]
    rintro a (ha | rfl)
    · exact h.attempted a ha
    · exact h.own
  · exact h.once.append (nodup_singleton _) (by simpa using h.fresh)
  · simp only [mem_append, mem_singleton]
    rintro a (ha | rfl)
    · exact h.unused a ha
    · exact (nodup_cons.mp h.formats).1

theorem inv_continues {n : Nat} (h : Inv env n t) (hi : t.i < t.attemptLimit)
    (honours : ∀ k format excluded targetID,
      env.select k format excluded = some targetID → targetID ∉ excluded)
    (hc : Continues env t t') : Inv env n t' := by
  have hattempts := h.attempts
  have hlimit := h.limit
  have hatLeast := h.atLeast
  have hrelease := exits_release h.holds
  have hlog : ∀ {w r}, ((t.log.attempt t.selectFormat t.sel).releaseSelection t.sel).Selects w r →
      w.attempts = t.log.attempts ++ [(t.selectFormat, t.sel.targetID)] := by
    intro w r hs
    simp [hs.attempts, FailoverLog.attempt]
  cases hc with
  | selected w sel hlast hselect =>
    have hs := FailoverLog.selects_selectExcluding hselect
    rw [← hlog hs] at hattempts
    have hnew := FailoverLog.not_mem_of_selectExcluding honours hselect
    exact {
      holds := hrelease.settled.holds_of_selects hs
      last := .inl (by push_cast; omega)
      turns := hattempts.turns
      within := by push_cast; omega
      limit := hlimit
      atLeast := hatLeast
      attempted := fun a ha => mem_append_left _ (hattempts.attempted a ha)
      own := by simp
      fresh := fun hmem => hnew (hattempts.attempted _ hmem)
      once := hattempts.once
      formats := h.formats
      unused := hattempts.unused }
  | switched w s hswitch =>
    obtain ⟨hs, hrest⟩ := switchProtocol_spec hswitch
    obtain ⟨skipped, next, heq, hformat⟩ := hrest s rfl
    rw [← hlog hs] at hattempts
    have hformats := h.formats
    have hunused := hattempts.unused
    simp only [heq, map_append, map_cons, hformat] at hformats hunused
    have hlength : t.fallbacks.length = skipped.length + (s.rest.length + 1) := by
      simp [heq]
    exact {
      holds := hrelease.settled.holds_of_selects hs
      last := .inr rfl
      turns := hattempts.turns
      within := by push_cast; omega
      limit := by dsimp only; split <;> omega
      atLeast := by dsimp only; split <;> omega
      attempted := fun a ha => by
        have := hattempts.attempted a ha
        dsimp only
        split <;> simp [this]
      own := by dsimp only; split <;> simp [*]
      fresh := fun hmem => hunused _ hmem (by simp)
      once := hattempts.once
      formats := (nodup_append.mp (nodup_cons.mp hformats).2).2.1
      unused := fun a ha hmem => hunused a ha (by simp [hmem]) }

theorem failoverLoop_spec {n : Nat} (h : Inv env n t)
    (honours : ∀ k format excluded targetID,
      env.select k format excluded = some targetID → targetID ∉ excluded) :
    (failoverLoop env t).2.Settled ∧
      (failoverLoop env t).2.attempts.length ≤ max env.failoverAttempts 0 + n ∧
      (failoverLoop env t).2.attempts.Nodup := by
  induction t using failoverLoop.induct env with
  | case1 t hi t' hnext _ ih =>
    rw [failoverLoop_next hi, hnext]
    exact ih (inv_continues h hi honours (continues_of_next hnext))
  | case2 t hi r hnext =>
    rw [failoverLoop_next hi, hnext, Sum.elim_inr, id]
    have hexits := exits_of_next h.holds hnext
    have hattempts := h.attempts
    have hlimit := h.limit
    refine ⟨hexits.settled, ?_, ?_⟩
    · have := hattempts.turns
      rcases hexits.attempts with heq | heq
      · have := h.turns
        rw [heq]
        omega
      · rw [heq]
        omega
    · rcases hexits.attempts with heq | heq
      · exact heq ▸ h.once
      · exact heq ▸ hattempts.once
  | case3 t hi =>
    rw [failoverLoop, dif_neg hi, h.last.resolve_left hi]
    refine ⟨h.holds.releaseSelection, ?_, ?_⟩
    · have := h.turns
      have := h.within
      rw [FailoverLog.releaseSelection_attempts]
      omega
    · rw [FailoverLog.releaseSelection_attempts]
      exact h.once

end Turn

/-- For a scheduler that honours the exclusion, and fallbacks in distinct protocols other than the
first one: the loop makes at most `failoverAttempts` attempts and one for each fallback, it gives
back the slot of every selection once, and it attempts no target twice under one protocol. -/
theorem failoverLoop_releases (env : FailoverEnv) (selectFormat : RequestFormat)
    (fallbacks : List ProtocolFallback) (targetID : Int)
    (honours : ∀ k format excluded targetID,
      env.select k format excluded = some targetID → targetID ∉ excluded)
    (hformats : (selectFormat :: fallbacks.map ProtocolFallback.format).Nodup) :
    let w := (failoverLoop env (Turn.start env selectFormat fallbacks targetID)).2
    w.attempts.length ≤ max env.failoverAttempts 0 + fallbacks.length ∧
      (∀ sel ∈ w.obtained, w.released.count sel.id = 1) ∧ w.attempts.Nodup := by
  obtain ⟨hsettled, hlength, honce⟩ :=
    Turn.failoverLoop_spec (Turn.inv_start selectFormat fallbacks targetID hformats) honours
  exact ⟨hlength, hsettled.count, honce⟩

/-- Three turns: the first target fails, the second does not speak the protocol, and a third answers
under the fallback. -/
def switchingEnv : FailoverEnv where
  failoverAttempts := 2
  priced _ := true
  call i := [.failed 503 false, .failed 404 true].getD i .handled
  cancelled _ := false
  select _ _ excluded := [10, 11, 12].find? (· ∉ excluded)

theorem failoverLoop_releases_switching :
    let w := (failoverLoop switchingEnv
      (Turn.start switchingEnv .openaiResponses [⟨.openaiChat, true⟩] 10)).2
    w.attempts.length ≤ max switchingEnv.failoverAttempts 0 + 1 ∧
      (∀ sel ∈ w.obtained, w.released.count sel.id = 1) ∧ w.attempts.Nodup :=
  failoverLoop_releases switchingEnv .openaiResponses [⟨.openaiChat, true⟩] 10
    (fun _ _ _ _ h => by simpa using find?_some h) (by decide)

end C4Gateway
