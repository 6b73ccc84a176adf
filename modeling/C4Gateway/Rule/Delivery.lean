import C4Gateway.Rule.Engine

/-! The way of a result to the rules: `MarkResult` of the scheduler makes an event of it, a bounded
queue takes the event, and the worker of the engine handles one event after another, with a cleanup
of the windows in between.  Every result that the scheduler is asked to record is kept next to the
state, and every queued event with the results up to it. -/

namespace C4Gateway

open List
open RuleEngine (stamp enabledRules reload)

/-- What `markResult` reads of the account's snapshot. -/
structure SnapshotView where
  status : AccountStatus := .active
  templateID : Int := 0
  gid : Int := 0
  retry429Streak : Nat := 0
  deriving DecidableEq, Repr

/-- The arguments of `markResult`. -/
structure ResultCall where
  accountID : Int
  requestGroupID : Int := 0
  kind : ResultKind
  resetAt : Option Int := none
  httpStatus : Int := 0
  errMsg : String := ""
  model : String := ""
  deriving DecidableEq, Repr

/-- An event with the results that had come in when it was sent. -/
structure QueuedEvent where
  ev : RuleEvent
  history : List AccountResult

/-- The engine behind its queue; an event is dropped while the queue is full. -/
structure Delivery where
  engine : RuleEngine
  capacity : Nat
  clock : Int
  queue : List QueuedEvent := []
  results : List AccountResult := []

inductive DeliveryOp where
  | tick (d : Nat)
  | markResult (account : Option SnapshotView) (call : ResultCall) (elapsed : Nat)
  | handle
  | cleanup
  deriving DecidableEq, Repr

def groupIDPtr (gid : Int) : Option Int := if gid ≤ 0 then none else some gid

def RuleEvent.result (ev : RuleEvent) : AccountResult := ⟨ev.accountID, ev.kind, ev.occurredAt⟩

namespace Delivery

/-- The queue that `New` makes. -/
def queueSize (eventQueueSize : Int) : Nat :=
  if eventQueueSize ≤ 0 then 4096 else eventQueueSize.toNat

def start (e : RuleEngine) (eventQueueSize now : Int) : Delivery where
  engine := e
  capacity := queueSize eventQueueSize
  clock := now

/-- The event of a result, from the clock at the start and at the end of `markResult`. -/
def eventOf (a : SnapshotView) (call : ResultCall) (now later : Int) : RuleEvent where
  accountID := call.accountID
  templateID := a.templateID
  groupID := groupIDPtr (if call.requestGroupID > 0 then call.requestGroupID else a.gid)
  model := call.model
  kind := call.kind
  httpStatus := if call.httpStatus > 0 then some call.httpStatus else none
  errorMessage := call.errMsg
  resetAt :=
    if call.kind = .err429 then
      some (retry429Deadline now ((a.retry429Streak + 1) % 2 ^ 32) call.resetAt)
    else call.resetAt
  occurredAt := later

def enqueue (s : Delivery) (ev : RuleEvent) : Delivery :=
  if s.queue.length < s.capacity then { s with queue := s.queue ++ [⟨ev, s.results⟩] } else s

/-- The scheduler is asked to record a result; the clock moves on by `elapsed` meanwhile. -/
def markResult (s : Delivery) (account : Option SnapshotView) (call : ResultCall)
    (elapsed : Nat) : Delivery :=
  let later := s.clock + elapsed
  let s' := { s with
    clock := later
    results := s.results ++ [⟨call.accountID, call.kind, later⟩] }
  match account with
  | none => s'
  | some a =>
    if a.status = .disabled then s'
    else if call.kind = .ok ∧ ¬ s.engine.needsOK then s'
    else s'.enqueue (eventOf a call s.clock later)

variable (parseDuration : String → Option Int)

def step (s : Delivery) : DeliveryOp → Delivery
  | .tick d => { s with clock := s.clock + d }
  | .markResult account call elapsed => s.markResult account call elapsed
  | .handle =>
    match s.queue with
    | [] => s
    | q :: queue =>
      { s with engine := (s.engine.handleEvent parseDuration s.clock q.ev).1, queue }
  | .cleanup => { s with engine := { s.engine with wm := s.engine.wm.cleanup s.clock } }

/-- How many results of an account and a counter are from `since` on. -/
def occurred (history : List AccountResult) (aid : Int) (t : Tally) (since : Int) : Nat :=
  history.countP fun e => e.accountID = aid ∧ e.kind.tally = t ∧ since ≤ e.time

/-- The counts that the rules are tried with on the next event include, for every rule with window
conditions, every result up to the event that is within the rule's window. -/
def Complete (s : Delivery) : DeliveryOp → Prop
  | .handle => ∀ q ∈ s.queue.head?, ∀ r ∈ s.engine.rules, ruleNeedsWindow r.when →
      ∀ t, occurred q.history q.ev.accountID t
          (q.ev.occurredAt - ruleWindowSeconds r.when * second) ≤
        ((RuleEngine.windowCounts (s.engine.counted (stamp s.clock q.ev))
          (stamp s.clock q.ev) r).1.get t)
  | _ => True

/-- The step loses no result: a result to record is of an account that is known and not disabled,
it is not a success that no rule asks for, and the queue has room; a cleanup does not come so late
that an event still to be handled looks back at what it removes. -/
def Delivers (s : Delivery) : DeliveryOp → Prop
  | .markResult account call _ =>
    (∃ a, account = some a ∧ a.status ≠ .disabled) ∧ (call.kind = .ok → s.engine.needsOK) ∧
      s.queue.length < s.capacity
  | .cleanup => s.engine.wm.span < s.engine.wm.retention ∧
      ∀ q ∈ s.queue, s.clock - s.engine.wm.retention + s.engine.wm.span < q.ev.occurredAt
  | _ => True

/-- The results after those already counted are the queued ones, in order. -/
def Follows (results : List AccountResult) : List AccountResult → List QueuedEvent → Prop
  | done, [] => done = results
  | done, q :: queue =>
    q.history = done ++ [q.ev.result] ∧ Follows results (done ++ [q.ev.result]) queue

theorem Follows.append {results done : List AccountResult} {queue : List QueuedEvent}
    (h : Follows results done queue) {ev : RuleEvent} :
    Follows (results ++ [ev.result]) done (queue ++ [⟨ev, results ++ [ev.result]⟩]) := by
  induction queue generalizing done with
  | nil =>
    obtain rfl : done = results := h
    exact ⟨rfl, rfl⟩
  | cons q queue ih => exact ⟨h.1, ih h.2⟩

/-- The windows hold the results `done` up to `latest` and after `forgot`; the other results are
queued in the order of their times, and nothing still to come looks back as far as `forgot`. -/
structure Consistent (s : Delivery) (done : List AccountResult) (forgot latest : Int) : Prop where
  records : s.engine.wm.Records forgot latest done
  follows : Follows s.results done s.queue
  sorted : s.queue.Pairwise fun a b => a.ev.occurredAt ≤ b.ev.occurredAt
  between : ∀ q ∈ s.queue, latest ≤ q.ev.occurredAt ∧ q.ev.occurredAt ≤ s.clock
  queued : ∀ q ∈ s.queue, 0 < q.ev.occurredAt ∧ s.engine.wm.tracks q.ev.kind ∧
    forgot + s.engine.wm.span < q.ev.occurredAt
  now : 0 < s.clock ∧ latest ≤ s.clock ∧ forgot + s.engine.wm.span < s.clock
  tracks : s.engine.wm.trackOK = s.engine.needsOK

section
variable {parseDuration : String → Option Int} {s : Delivery} {done : List AccountResult}
  {forgot latest : Int}

theorem Consistent.tick (h : s.Consistent done forgot latest) (d : Nat) :
    (s.step parseDuration (.tick d)).Consistent done forgot latest := by
  refine { h with between := fun q hq => ?_, now := ?_ }
  · have := h.between q hq
    simp only [step]
    omega
  · have := h.now
    simp only [step]
    omega

variable {elapsed : Nat} {q : QueuedEvent} {call : ResultCall} {queue : List QueuedEvent}
  {account : Option SnapshotView} (op : DeliveryOp)

theorem markResult_of_delivers (hd : s.Delivers (.markResult account call elapsed)) :
    ∃ a, account = some a ∧ s.markResult account call elapsed =
      let ev := eventOf a call s.clock (s.clock + elapsed)
      { s with
        clock := s.clock + elapsed
        results := s.results ++ [ev.result]
        queue := s.queue ++ [⟨ev, s.results ++ [ev.result]⟩] } := by
  obtain ⟨⟨a, rfl, hstatus⟩, hok, hroom⟩ := hd
  have hkind : ¬ (call.kind = .ok ∧ ¬ s.engine.needsOK) := fun hdrop => hdrop.2 (hok hdrop.1)
  refine ⟨a, rfl, ?_⟩
  simp only [markResult, hstatus, hkind, enqueue, hroom]
  rfl

theorem Consistent.markResult (h : s.Consistent done forgot latest)
    (hd : s.Delivers (.markResult account call elapsed)) :
    (s.step parseDuration (.markResult account call elapsed)).Consistent done forgot latest := by
  obtain ⟨a, rfl, heq⟩ := markResult_of_delivers hd
  obtain ⟨hpos, hlatest, hfar⟩ := h.now
  have htracks : s.engine.wm.tracks call.kind := by
    simp only [WindowMap.tracks, h.tracks]
    by_cases hok : call.kind = .ok
    · simp [hd.2.1 hok]
    · simp [hok]
  rw [step, heq]
  refine ⟨h.records, h.follows.append, ?_, ?_, ?_, ⟨?_, ?_, ?_⟩, h.tracks⟩
  · refine pairwise_append.mpr ⟨h.sorted, pairwise_singleton .., fun q hq q' hq' => ?_⟩
    obtain rfl := mem_singleton.mp hq'
    have := (h.between q hq).2
    change q.ev.occurredAt ≤ s.clock + elapsed
    omega
  · intro q hq
    rcases mem_append.mp hq with hq | hq
    · have := h.between q hq
      dsimp only
      omega
    · obtain rfl := mem_singleton.mp hq
      exact ⟨by change latest ≤ s.clock + elapsed; omega, le_rfl⟩
  · intro q hq
    rcases mem_append.mp hq with hq | hq
    · exact h.queued q hq
    · obtain rfl := mem_singleton.mp hq
      exact ⟨by change 0 < s.clock + elapsed; omega, htracks,
        by change _ < s.clock + elapsed; dsimp only; omega⟩
  all_goals dsimp only; omega

theorem stamp_of_pos {ev : RuleEvent} (h : 0 < ev.occurredAt) (now : Int) :
    stamp now ev = ev := if_neg h.ne'

theorem step_handle {q : QueuedEvent} {queue : List QueuedEvent} (hqueue : s.queue = q :: queue)
    (hpos : 0 < q.ev.occurredAt) : s.step parseDuration .handle =
      { s with engine := { s.engine with wm := s.engine.counted q.ev }, queue } := by
  simp [step, hqueue, RuleEngine.handleEvent_eq, stamp_of_pos hpos]

section
variable (h : s.Consistent done forgot latest)
include h

/-- The event at the head is counted with the results before it. -/
theorem Consistent.counted (hqueue : s.queue = q :: queue) :
    (s.engine.counted q.ev).Records forgot q.ev.occurredAt q.history := by
  have hmem : q ∈ s.queue := by simp [hqueue]
  have hfollows := h.follows
  rw [hqueue] at hfollows
  have hadd := h.records.add (h.between q hmem).1 q.ev.accountID q.ev.kind
  rw [if_pos (h.queued q hmem).2.1] at hadd
  rw [hfollows.1]
  exact hadd

theorem Consistent.handle :
    ∃ done latest, (s.step parseDuration .handle).Consistent done forgot latest := by
  cases hqueue : s.queue with
  | nil =>
    have heq : s.step parseDuration .handle = s := by simp [step, hqueue]
    exact ⟨done, latest, by rw [heq]; exact h⟩
  | cons q queue =>
    have hmem : q ∈ s.queue := by simp [hqueue]
    have htail : ∀ q' ∈ queue, q' ∈ s.queue := fun q' hq' => by simp [hqueue, hq']
    obtain ⟨-, -, htrack⟩ := s.engine.wm.add_shape q.ev.accountID q.ev.kind q.ev.occurredAt
    have hfollows := h.follows
    have hsorted := h.sorted
    rw [hqueue] at hfollows hsorted
    obtain ⟨hhead, hsorted⟩ := pairwise_cons.mp hsorted
    rw [step_handle hqueue (h.queued q hmem).1]
    refine ⟨q.history, q.ev.occurredAt, h.counted hqueue, hfollows.1 ▸ hfollows.2, hsorted, ?_, ?_,
      ⟨h.now.1, (h.between q hmem).2, ?_⟩, ?_⟩
    · exact fun q' hq' => ⟨hhead q' hq', (h.between q' (htail q' hq')).2⟩
    · intro q' hq'
      have := h.queued q' (htail q' hq')
      simpa only [RuleEngine.counted, WindowMap.tracks, htrack, WindowMap.span_add] using this
    · simpa only [RuleEngine.counted, WindowMap.span_add] using h.now.2.2
    · simpa only [RuleEngine.counted, htrack] using h.tracks

theorem Consistent.cleanup (hd : s.Delivers .cleanup) :
    ∃ forgot, (s.step parseDuration .cleanup).Consistent done forgot latest := by
  obtain ⟨hretention, hqueued⟩ := hd
  refine ⟨max forgot (s.clock - s.engine.wm.retention), h.records.cleanup s.clock, h.follows,
    h.sorted, h.between, fun q hq => ?_, ⟨h.now.1, h.now.2.1, ?_⟩, h.tracks⟩
  · have hold := h.queued q hq
    have hnew := hqueued q hq
    refine ⟨hold.1, hold.2.1, ?_⟩
    simp only [step, WindowMap.span_cleanup]
    omega
  · have := h.now.2.2
    simp only [step, WindowMap.span_cleanup]
    omega

end

/-- Every rule with window conditions looks back no further than the ring reaches. -/
def Covers (e : RuleEngine) : Prop :=
  ∀ r ∈ e.rules, ruleNeedsWindow r.when →
    ruleWindowSeconds r.when * second ≤ e.wm.span ∧ e.wm.buckets.size * e.wm.width ≤ maxInt64

theorem ruleWindowSeconds_pos (w : RuleWhen) : 0 < ruleWindowSeconds w := by
  unfold ruleWindowSeconds
  split
  · split
    · assumption
    · decide
  · decide

theorem occurred_le_tallied {history : List AccountResult} {aid since last : Int} {t : Tally}
    (hforgot : forgot < since) (hlast : ∀ e ∈ history, e.time ≤ last) :
    occurred history aid t since ≤ tallied history forgot aid t since (last + 1) := by
  refine countP_mono_left fun e he hin => ?_
  simp only [decide_eq_true_eq] at hin ⊢
  have := hlast e he
  exact ⟨hin.1, hin.2.1, hin.2.2, by omega, by omega⟩

theorem Consistent.complete (h : s.Consistent done forgot latest) (hcovers : Covers s.engine) :
    s.Complete .handle := by
  intro q hq r hr hneeds t
  obtain ⟨queue, hqueue⟩ := head?_eq_some_iff.mp hq
  have hmem : q ∈ s.queue := by simp [hqueue]
  obtain ⟨hpos, -, hfar⟩ := h.queued q hmem
  obtain ⟨hspan, hfit⟩ := hcovers r hr hneeds
  have hcounted := h.counted hqueue
  obtain ⟨hwidth, hsize, -⟩ := s.engine.wm.add_shape q.ev.accountID q.ev.kind q.ev.occurredAt
  rw [stamp_of_pos hpos]
  simp only [RuleEngine.windowCounts, hneeds]
  have hafter : forgot < q.ev.occurredAt - ruleWindowSeconds r.when * second := by omega
  refine (occurred_le_tallied hafter hcounted.upto).trans
    (hcounted.snapshot le_rfl (ruleWindowSeconds_pos _) ?_ ?_ q.ev.accountID t)
  · simpa only [RuleEngine.counted, WindowMap.span_add] using hspan
  · simpa only [RuleEngine.counted, hwidth, hsize] using hfit

/-- Kept by every step that loses no result. -/
def Inv (s : Delivery) : Prop :=
  Covers s.engine ∧ ∃ done forgot latest, s.Consistent done forgot latest

theorem covers_step (h : Covers s.engine) (op : DeliveryOp) :
    Covers (s.step parseDuration op).engine := by
  cases op with
  | tick d => exact h
  | markResult account call elapsed =>
    have hengine : (s.markResult account call elapsed).engine = s.engine := by
      simp only [markResult, enqueue]
      repeat' split
      all_goals rfl
    rw [step, hengine]
    exact h
  | handle =>
    simp only [step]
    split
    · exact h
    next q queue hqueue =>
      rw [RuleEngine.handleEvent_eq]
      obtain ⟨hwidth, hsize, -⟩ := s.engine.wm.add_shape (stamp s.clock q.ev).accountID
        (stamp s.clock q.ev).kind (stamp s.clock q.ev).occurredAt
      simpa only [Covers, RuleEngine.counted, WindowMap.span_add, hwidth, hsize] using h
  | cleanup =>
    simpa only [Covers, step, WindowMap.span_cleanup, WindowMap.size_cleanup,
      WindowMap.width_cleanup] using h

theorem inv_step (h : s.Inv) (hd : s.Delivers op) : (s.step parseDuration op).Inv := by
  obtain ⟨hcovers, done, forgot, latest, hs⟩ := h
  refine ⟨covers_step hcovers op, ?_⟩
  cases op with
  | tick d => exact ⟨done, forgot, latest, hs.tick d⟩
  | markResult account call elapsed => exact ⟨done, forgot, latest, hs.markResult hd⟩
  | handle =>
    obtain ⟨done, latest, hs⟩ := hs.handle
    exact ⟨done, forgot, latest, hs⟩
  | cleanup =>
    obtain ⟨forgot, hs⟩ := hs.cleanup hd
    exact ⟨done, forgot, latest, hs⟩

theorem complete_of_inv (h : s.Inv) : s.Complete op := by
  obtain ⟨hcovers, done, forgot, latest, hs⟩ := h
  cases op with
  | handle => exact hs.complete hcovers
  | tick | markResult | cleanup => trivial

theorem run_complete {ops : List DeliveryOp} (h : s.Inv)
    (hd : Run.Each (step parseDuration) Delivers s ops) :
    Run.Each (step parseDuration) Complete s ops :=
  hd.imp Inv (fun _ op => inv_step op) (fun _ op h _ => complete_of_inv op h) h

end

/-! ### Rule sets -/

/-- What the ring is made for: the longest window that a rule sets, or the default one. -/
def ringWindow (rows : List Rule) : Int :=
  let explicit := wrapInt64 (RuleEngine.maxWindow (enabledRules rows) * second)
  if explicit ≤ 0 then defaultWindowSeconds * second else explicit

/-- Every enabled rule with window conditions has a window within the buckets that are made next to
the current one, and the width of all of them is an `int64`. -/
def WindowsFit (rows : List Rule) : Prop :=
  let b := bucketWidth (ringWindow rows)
  ∀ r ∈ enabledRules rows, ruleNeedsWindow r.when →
    ruleWindowSeconds r.when * second ≤ b.2 * b.1 ∧ (b.2 + 1) * b.1 ≤ maxInt64

instance (rows : List Rule) : Decidable (WindowsFit rows) :=
  inferInstanceAs (Decidable (∀ r ∈ _, _ → _))

variable {rows : List Rule} {e : RuleEngine}

section
variable (h : reload rows = some e)
include h

theorem reload_eq_some : let b := bucketWidth (ringWindow rows)
    e.rules = (enabledRules rows).map compileRule ∧ e.wm.nextAt = none ∧
      e.wm.trackOK = e.needsOK ∧ e.wm.width = b.1 ∧ (e.wm.buckets.size : Int) = b.2 + 1 := by
  obtain ⟨wm, hwm, rfl⟩ := Option.map_eq_some_iff.mp h
  obtain ⟨hnext, htrack, hwidth, hsize⟩ := WindowMap.reset_eq_some hwm
  exact ⟨rfl, hnext, htrack, hwidth, hsize⟩

theorem covers_iff : Covers e ↔ WindowsFit rows := by
  obtain ⟨hrules, -, -, hwidth, hsize⟩ := reload_eq_some h
  simp only [Covers, hrules, forall_mem_map, WindowMap.span, hwidth, hsize, add_sub_cancel_right]
  exact Iff.rfl

theorem inv_start (hfit : WindowsFit rows) (eventQueueSize : Int) {now : Int} (hnow : 0 < now) :
    (start e eventQueueSize now).Inv := by
  obtain ⟨-, hnext, htrack, -, -⟩ := reload_eq_some h
  refine ⟨(covers_iff h).mpr hfit, [], now - e.wm.span - 1, now,
    WindowMap.records_nil hnext _ _, rfl, List.Pairwise.nil, ?_, ?_, ⟨hnow, le_rfl, ?_⟩, htrack⟩
  · simp [start]
  · simp [start]
  · simp only [start]
    omega

/-- The wrapped product is negative when the product does not fit. -/
theorem wrap_of_not_fit (hbig : ¬ e.wm.buckets.size * e.wm.width ≤ maxInt64) :
    wrapInt64 (e.wm.buckets.size * e.wm.width) ≤ 0 := by
  obtain ⟨-, -, -, hwidth, hsize⟩ := reload_eq_some h
  have hring : 0 < ringWindow rows ∧ ringWindow rows ≤ maxInt64 := by
    have := wrapInt64_le (RuleEngine.maxWindow (enabledRules rows) * second)
    unfold ringWindow defaultWindowSeconds second maxInt64 at *
    dsimp only
    split <;> omega
  have hle := WindowMap.bucketWidth_mul_le hring.1 hring.2
  rw [← hsize, ← hwidth] at hle
  unfold maxInt64 at *
  simp only [wrapInt64, Int.bmod_def]
  omega

end

/-- A connection of account 1 fails. -/
def failureOp : DeliveryOp := .markResult (some {}) { accountID := 1, kind := .network } 0

def failureEvent (t : Int) : RuleEvent where
  accountID := 1
  kind := .network
  occurredAt := t

section
variable {parseDuration : String → Option Int} {s : Delivery}

theorem delivers_failureOp (hqueue : s.queue = []) (hcap : 0 < s.capacity) :
    s.Delivers failureOp :=
  ⟨⟨{}, rfl, by decide⟩, (fun hok => absurd hok (by decide)), by simpa [hqueue] using hcap⟩

theorem step_failureOp (hqueue : s.queue = []) (hcap : 0 < s.capacity) :
    s.step parseDuration failureOp =
      { s with
        results := s.results ++ [(failureEvent s.clock).result]
        queue := [⟨failureEvent s.clock, s.results ++ [(failureEvent s.clock).result]⟩] } := by
  simp [step, failureOp, markResult, enqueue, hqueue, hcap, eventOf, groupIDPtr, failureEvent,
    RuleEvent.result]

theorem step_failureOp_handle (hqueue : s.queue = []) (hcap : 0 < s.capacity)
    (hpos : 0 < s.clock) : (s.step parseDuration failureOp).step parseDuration .handle =
      { s with
        engine := { s.engine with wm := s.engine.wm.add 1 .network s.clock }
        results := s.results ++ [(failureEvent s.clock).result]
        queue := [] } := by
  have hq : (s.step parseDuration failureOp).queue =
      [⟨failureEvent s.clock, s.results ++ [(failureEvent s.clock).result]⟩] := by
    rw [step_failureOp hqueue hcap]
  rw [step_handle hq hpos, step_failureOp hqueue hcap]
  rfl

/-- Two failures that are a window apart or less, and the counts of the second one show one. -/
theorem exists_incomplete (parseDuration : String → Option Int)
    (h : reload rows = some e) (hnot : ¬ WindowsFit rows) (eventQueueSize : Int) :
    ∃ now ops, 0 < now ∧
      Run.Each (step parseDuration) Delivers (start e eventQueueSize now) ops ∧
      ¬ Run.Each (step parseDuration) Complete (start e eventQueueSize now) ops := by
  rw [← covers_iff h] at hnot
  simp only [Covers, not_forall] at hnot
  obtain ⟨r, hr, hneeds, hnot⟩ := hnot
  obtain ⟨-, hnext, -, -, -⟩ := reload_eq_some h
  have hw := e.wm.width_pos
  have hwindow : 0 < ruleWindowSeconds r.when * second := by
    have := ruleWindowSeconds_pos r.when
    unfold second
    omega
  obtain ⟨d, hd, hfar⟩ : ∃ d : Nat, (0 < d ∧ d ≤ ruleWindowSeconds r.when * second) ∧
      (e.wm.span < d ∨ wrapInt64 (e.wm.buckets.size * e.wm.width) ≤ 0) := by
    by_cases hspan : ruleWindowSeconds r.when * second ≤ e.wm.span
    · exact ⟨1, by omega, .inr (wrap_of_not_fit h fun hfit => hnot ⟨hspan, hfit⟩)⟩
    · exact ⟨(ruleWindowSeconds r.when * second).toNat, by omega, .inl (by omega)⟩
  -- The second failure is at the start of a bucket.
  obtain ⟨t, hdvd, ht⟩ : ∃ t, e.wm.width ∣ t ∧ ruleWindowSeconds r.when * second < t := by
    refine ⟨e.wm.width * (ruleWindowSeconds r.when * second + 1), dvd_mul_right .., ?_⟩
    have := le_mul_of_one_le_left (show 0 ≤ ruleWindowSeconds r.when * second + 1 by omega)
      (show 1 ≤ e.wm.width by omega)
    omega
  have hcap : 0 < queueSize eventQueueSize := by
    unfold queueSize
    split <;> omega
  refine ⟨t - d, [failureOp, .handle, .tick d, failureOp, .handle], by omega, ?_, ?_⟩
  · refine ⟨delivers_failureOp rfl hcap, trivial, trivial, ?_, trivial, trivial⟩
    rw [step_failureOp_handle rfl hcap (by simp only [start]; omega)]
    exact delivers_failureOp rfl hcap
  · rintro ⟨-, -, -, -, hcomplete, -⟩
    rw [step_failureOp_handle rfl hcap (by simp only [start]; omega),
      step_failureOp rfl hcap] at hcomplete
    have hcount := hcomplete _ rfl r hr hneeds .failure
    have hclock : t - (d : Int) + d = t := by omega
    rw [stamp_of_pos (by simp only [failureEvent, step, start]; omega)] at hcount
    simp only [RuleEngine.windowCounts, hneeds, step, start, hclock] at hcount
    have hone := WindowMap.snapshot_le_one hnext (show t - d < t by omega) hdvd
      (hfar.imp_left fun hfar => by omega) 1 (ruleWindowSeconds r.when)
    have htwo : occurred [⟨1, .network, t - d⟩, ⟨1, .network, t⟩] 1 .failure
        (t - ruleWindowSeconds r.when * second) = 2 := by
      have hfirst : t - ruleWindowSeconds r.when * second ≤ t - d := by omega
      have hsecond : t - ruleWindowSeconds r.when * second ≤ t := by omega
      simp only [occurred, ResultKind.tally, countP_cons, countP_nil, hfirst, hsecond, and_self,
        decide_true, if_true]
    have := htwo.symm.le.trans (hcount.trans hone)
    omega

end

/-- The counts are complete in every run that loses no result exactly if the windows of the rules
fit the ring. -/
theorem runs_complete_iff (parseDuration : String → Option Int)
    (h : reload rows = some e) (eventQueueSize : Int) :
    (∀ now ops, 0 < now →
        Run.Each (step parseDuration) Delivers (start e eventQueueSize now) ops →
        Run.Each (step parseDuration) Complete (start e eventQueueSize now) ops) ↔
      WindowsFit rows := by
  constructor
  · intro hall
    by_contra hnot
    obtain ⟨now, ops, hnow, hdelivers, hincomplete⟩ :=
      exists_incomplete parseDuration h hnot eventQueueSize
    exact hincomplete (hall now ops hnow hdelivers)
  · intro hfit now ops hnow hdelivers
    exact run_complete (inv_start h hfit eventQueueSize hnow) hdelivers

/-- Sets an account aside on a 429 once it has had ten results. -/
def throttled : Rule where
  priority := 10
  when := { kind := some "429", windowSeconds := some 10, countTotalGE := some 10 }
  then_ := { status := some .err429 }

/-- Sets an account aside on two failed connections, in the default window. -/
def unreachable : Rule where
  priority := 20
  when := { kind := some "network", countFailureGE := some 2 }
  then_ := { status := some .unhealthy }

theorem runs_complete_throttled :
    (reload [throttled]).isSome ∧ WindowsFit [throttled] ∧
      ∀ e, reload [throttled] = some e → ∀ now ops, 0 < now →
        Run.Each (step fun _ => none) Delivers (start e 0 now) ops →
        Run.Each (step fun _ => none) Complete (start e 0 now) ops := by
  have hfit : WindowsFit [throttled] := by decide
  exact ⟨rfl, hfit, fun e h => (runs_complete_iff (fun _ => none) h 0).mpr hfit⟩

/-- A success is not counted when no rule asks for successes, and of two failures that are twenty
seconds apart one is not counted in a window of a minute when the only window set is shorter. -/
theorem counts_miss_results :
    (∃ e, reload [throttled] = some e ∧
      ¬ Run.Each (step fun _ => none) Complete (start e 0 (1000 * second))
        [.markResult (some {}) { accountID := 1, kind := .ok } 0,
          .markResult (some {}) { accountID := 1, kind := .err429 } 0, .handle]) ∧
    ∃ e, reload [throttled, unreachable] = some e ∧
      ¬ Run.Each (step fun _ => none) Complete (start e 0 (1000 * second))
        [failureOp, .handle, .tick 20000000000, failureOp, .handle] := by
  refine ⟨⟨_, rfl, fun h => ?_⟩, _, rfl, fun h => ?_⟩
  · exact absurd (h.2.2.1 _ rfl (compileRule throttled) (List.Mem.head _) rfl .ok) (by decide)
  · exact absurd (h.2.2.2.2.1 _ rfl (compileRule unreachable) (.tail _ (.head _)) rfl .failure)
      (by decide)

end Delivery
end C4Gateway
