import C4Gateway.Lib.Count
import C4Gateway.Lib.Run

/-! The recorder of usage logs, at the granularity of its critical sections and of its calls of
`InsertBatch`.  `flushLogs` takes the pending logs and deals them out to workers, which insert them
chunk by chunk; a chunk that fails is bisected.  The database decides a call at any time between its
submission and its result, and a call that a cancelled context has left behind reports late. -/

namespace C4Gateway

/-- A log as the recorder sees it.  `ptr` is the pointer: each `Record` call has one of its own. -/
structure LogRef where
  ptr : Nat
  userID : Int
  deriving DecidableEq, Repr

/-- A configuration with at least one worker and one row a batch. -/
structure RecorderConfig where
  workers : Nat
  batchSize : Nat
  workers_pos : 0 < workers
  batchSize_pos : 0 < batchSize

/-- The settings `New` goes by: one that is not positive becomes 1. -/
def RecorderConfig.new (workers batchSize : Int) : RecorderConfig where
  workers := if workers ≤ 0 then 1 else workers.toNat
  batchSize := if batchSize ≤ 0 then 1 else batchSize.toNat
  workers_pos := by split <;> omega
  batchSize_pos := by split <;> omega

namespace RecorderConfig

def shardOf (cfg : RecorderConfig) (l : LogRef) : Nat :=
  (l.userID % 2 ^ 64).toNat % cfg.workers

/-- The shards that get a worker. -/
def shards (cfg : RecorderConfig) (pend : List LogRef) : List (List LogRef) :=
  ((List.range cfg.workers).map fun i => pend.filter fun l => cfg.shardOf l = i).filter (· ≠ [])

end RecorderConfig

/-- Where a worker is in its shard.  `s` is what follows the chunk at hand.  A chunk that fails gets
a number `k`, and `poisonBisect` then has a part of it at hand. -/
inductive FlushPhase where
  | loop (s : List LogRef)
  | insert (batch s : List LogRef)
  | left (k : Nat) (chunk s : List LogRef)
  | right (k : Nat) (chunk s : List LogRef)
  | single (k : Nat) (l : LogRef) (s : List LogRef)
  | refill (parts : List (List LogRef))
  | done
  deriving DecidableEq

def leftHalf (chunk : List LogRef) : List LogRef := chunk.take (chunk.length / 2)

def rightHalf (chunk : List LogRef) : List LogRef := chunk.drop (chunk.length / 2)

/-- The entry of `poisonBisect`. -/
def poisonBisect (k : Nat) (chunk s : List LogRef) : FlushPhase :=
  match chunk with
  | [l] => .single k l s
  | _ => .left k chunk s

namespace FlushPhase

def holds : FlushPhase → List LogRef
  | .loop s => s
  | .insert batch s => batch ++ s
  | .left _ chunk s | .right _ chunk s => chunk ++ s
  | .single _ l s => l :: s
  | .refill parts => parts.flatten
  | .done => []

/-- The argument of the call of `InsertBatch` that the worker waits for. -/
def call : FlushPhase → Option (List LogRef)
  | .insert batch _ => some batch
  | .left _ chunk _ => some (leftHalf chunk)
  | .right _ chunk _ => some (rightHalf chunk)
  | .single _ l _ => some [l]
  | .loop _ | .refill _ | .done => none

def bisected : FlushPhase → List (Nat × List LogRef)
  | .left k chunk _ | .right k chunk _ => [(k, chunk)]
  | .single k l _ => [(k, [l])]
  | .loop _ | .insert .. | .refill _ | .done => []

end FlushPhase

/-- What a step of a worker hands over: logs whose insert succeeded, logs for `refillLogs`, a log
that is dropped, and a chunk that has failed. -/
structure WorkerEffect where
  persisted : List LogRef := []
  refilled : List LogRef := []
  dropped : Option (Nat × LogRef) := none
  failed : Option (List LogRef) := none
  deriving DecidableEq

/-- A worker and the database's decision on the call it waits for. -/
structure Worker where
  phase : FlushPhase
  outcome : Option Bool := none
  deriving DecidableEq

namespace Worker

/-- The next step of a worker; `k` is the number of a chunk that fails now. -/
def advance (cfg : RecorderConfig) (cancelled : Bool) (k : Nat) (wk : Worker) :
    FlushPhase × WorkerEffect :=
  match wk.phase, wk.outcome with
  | .loop [], _ => (.done, {})
  | .loop s, _ =>
    if cancelled then (.refill [s], {})
    else (.insert (s.take cfg.batchSize) (s.drop cfg.batchSize), {})
  | .insert batch s, some true => (.loop s, { persisted := batch })
  | .insert batch s, some false =>
    -- A single row is not bisected: it goes back with the rest.
    if batch.length = 1 then (.refill [batch ++ s], {})
    else (poisonBisect k batch s, { failed := some batch })
  | .left k chunk s, some true =>
    (poisonBisect k (rightHalf chunk) s, { persisted := leftHalf chunk })
  | .left k chunk s, some false => (.right k chunk s, {})
  | .right k chunk s, some true =>
    (poisonBisect k (leftHalf chunk) s, { persisted := rightHalf chunk })
  | .right _ chunk s, some false => (.refill [chunk, s], {})
  | .single _ l s, some true => (.refill [s], { persisted := [l] })
  | .single k l s, some false => (.refill [s], { dropped := some (k, l) })
  | .refill [], _ => (.done, {})
  | .refill (part :: parts), _ => (.refill parts, { refilled := part })
  | phase, _ => (phase, {})

def submitted (wk : Worker) : List LogRef := wk.phase.call.getD []

def committed (wk : Worker) : List LogRef :=
  if wk.outcome = some true then wk.submitted else []

end Worker

/-- A call of `InsertBatch` whose worker has gone on without the result. -/
structure EscapedCall where
  batch : List LogRef
  outcome : Option Bool
  deriving DecidableEq

def EscapedCall.committed (c : EscapedCall) : List LogRef :=
  if c.outcome = some true then c.batch else []

/-- The run of `flushLogs` that holds `flushMu`; `base` tells the recorder's own context from a
caller's. -/
structure FlushRun where
  base : Bool
  cancelled : Bool
  sharded : Bool := false
  deriving DecidableEq

/-- The recorder, the rows of the database, and the history of the logs: those recorded, those whose
insert reported success, those dropped (each with the number of its chunk), and the chunks that
failed. -/
structure Recorder where
  pending : List LogRef := []
  pendingN : Int := 0
  inflight : List LogRef := []
  run : Option FlushRun := none
  swapped : List LogRef := []
  workers : List Worker := []
  escaped : List EscapedCall := []
  db : List LogRef := []
  recorded : List LogRef := []
  persisted : List LogRef := []
  dropped : List (Nat × LogRef) := []
  failing : List (List LogRef) := []
  deriving DecidableEq

/-- Records, flushes and the steps of their shards and workers, in any order. -/
inductive RecorderOp where
  | record (userID : Int)
  | flushLogs (base cancelled : Bool)
  | cancel
  | shard
  | worker (i : Nat)
  | decide (i : Nat) (ok : Bool)
  | escape (i : Nat)
  | finish
  | decideLate (j : Nat) (ok : Bool)
  | removeAfterInsert (j : Nat)
  deriving DecidableEq

namespace Recorder

def record (w : Recorder) (userID : Int) : Recorder :=
  let l : LogRef := ⟨w.recorded.length, userID⟩
  { w with pending := w.pending ++ [l], pendingN := w.pendingN + 1, recorded := w.recorded ++ [l] }

def refillLogs (w : Recorder) (logs : List LogRef) : Recorder :=
  { w with pending := w.pending ++ logs, pendingN := w.pendingN + logs.length }

/-- The swap at the start of `flushLogs`; logs of a call left behind stay pending. -/
def swap (w : Recorder) (base cancelled : Bool) : Recorder :=
  let blocked := w.pending.filter (· ∈ w.inflight)
  { w with
    pending := blocked
    pendingN := w.pendingN - w.pending.length + blocked.length
    swapped := w.pending.filter (· ∉ w.inflight)
    run := some { base, cancelled } }

def retainInflight (w : Recorder) (batch : List LogRef) : Recorder :=
  { w with
    inflight := w.inflight ++ batch
    pending := w.pending ++ batch
    pendingN := w.pendingN + batch.length }

def effect (w : Recorder) (e : WorkerEffect) : Recorder :=
  { w.refillLogs e.refilled with
    persisted := w.persisted ++ e.persisted
    dropped := w.dropped ++ e.dropped.toList
    failing := w.failing ++ e.failed.toList }

/-- A batch that was inserted leaves the queue, and one that failed stays in it. -/
def removeAfterInsert (w : Recorder) (batch : List LogRef) (ok : Bool) : Recorder :=
  let w := { w with inflight := w.inflight.filter (· ∉ batch) }
  if ok then
    let kept := w.pending.filter (· ∉ batch)
    { w with
      pending := kept
      pendingN := w.pendingN - (w.pending.length - kept.length)
      persisted := w.persisted ++ batch }
  else w

/-- The recorder with one goroutine making its next step. -/
def step (cfg : RecorderConfig) (w : Recorder) : RecorderOp → Recorder
  | .record userID => w.record userID
  | .flushLogs base cancelled =>
    if w.run.isSome || w.pending.isEmpty then w else w.swap base cancelled
  | .cancel => { w with run := w.run.map fun r => { r with cancelled := true } }
  | .shard =>
    match w.run with
    | some ⟨_, true, false⟩ => { w.refillLogs w.swapped with swapped := [], run := none }
    | some ⟨base, false, false⟩ =>
      { w with
        swapped := []
        workers := (cfg.shards w.swapped).map fun s => { phase := .loop s }
        run := some ⟨base, false, true⟩ }
    | _ => w
  | .worker i =>
    match w.run, w.workers[i]? with
    | some r, some wk =>
      let (phase, e) := wk.advance cfg r.cancelled w.failing.length
      { w.effect e with workers := w.workers.set i { phase } }
    | _, _ => w
  | .decide i ok =>
    match w.workers[i]? with
    | some ⟨phase, none⟩ =>
      match phase.call with
      | some batch =>
        { w with
          workers := w.workers.set i ⟨phase, some ok⟩
          db := w.db ++ if ok then batch else [] }
      | none => w
    | _ => w
  | .escape i =>
    -- Only a first insert of a chunk under a caller's context can be left behind.
    match w.run, w.workers[i]? with
    | some ⟨false, true, _⟩, some ⟨.insert batch s, outcome⟩ =>
      { w.retainInflight batch with
        escaped := w.escaped ++ [⟨batch, outcome⟩]
        workers := w.workers.set i { phase := .refill [s] } }
    | _, _ => w
  | .finish =>
    match w.run with
    | some ⟨_, _, true⟩ =>
      if w.workers.all (·.phase = .done) then { w with workers := [], run := none } else w
    | _ => w
  | .decideLate j ok =>
    match w.escaped[j]? with
    | some ⟨batch, none⟩ =>
      { w with
        escaped := w.escaped.set j ⟨batch, some ok⟩
        db := w.db ++ if ok then batch else [] }
    | _ => w
  | .removeAfterInsert j =>
    match w.escaped[j]? with
    | some ⟨batch, some ok⟩ =>
      { w.removeAfterInsert batch ok with escaped := w.escaped.eraseIdx j }
    | _ => w

/-- The logs that a run of `flushLogs` has at hand. -/
def flushing (w : Recorder) : List LogRef :=
  w.swapped ++ w.workers.flatMap fun wk => wk.phase.holds

/-- The logs of the calls of `InsertBatch` whose result is still out. -/
def submitted (w : Recorder) : List LogRef :=
  w.workers.flatMap Worker.submitted ++ w.escaped.flatMap EscapedCall.batch

end Recorder
end C4Gateway
