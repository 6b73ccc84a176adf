import C4Gateway.Proxy.WsRelay

/-! The end of a relayed session, step by step.  Each of the three loops checks the context, records
its error, tells the session and cancels in steps of their own, and the session is classified as
soon as the reader of the upstream is done.  A session is a run of `Step`; panics are left out. -/

namespace C4Gateway.Proxy.Race

open Function (update update_apply update_self update_of_ne)

/-- The three goroutines of a session. -/
inductive Role where
  | client
  | up
  | heart
  deriving DecidableEq

/-- Where a loop is: in its first or second call, begun before its transport was cancelled or closed
(`live`) or after that, or on its way out. -/
inductive Pc where
  | call (second live : Bool)
  | failed (second : Bool) (err : WsError)
  | checked (second : Bool) (err : WsError)
  | exits
  | sent
  | done

/-- The function that waits for them, by its next step. -/
inductive Main where
  | waits
  | closes
  | joins
  | returned

/-- The terminal record, with what its writer has seen of the client. -/
structure Terminal where
  ending : RelayEnd
  endErr : Option WsError
  clientErr : Option WsError

/-- The last four fields say what has happened: a call to the upstream or to the client has failed,
the close frame that was read, and whether an error of the client was recorded before the first
cancellation. -/
structure Session where
  pc : Role → Pc := fun _ => .call false true
  main : Main := .waits
  cancelled : Bool := false
  closed : Bool := false
  ended : Bool := false
  upClose : Option Nat := none
  upErr : Option WsError := none
  clientErr : Option WsError := none
  pingErr : Option WsError := none
  log : List Terminal := []
  upFailed : Bool := false
  clientFailed : Bool := false
  frame : Option Nat := none
  early : Bool := false

/-- The client loop reads from the client and writes to the upstream, the up loop reads from the
upstream and writes to the client, and the heartbeat waits and pings. -/
def ofUpstream : Role → Bool → Bool
  | .client, second => second
  | .up, second => !second
  | .heart, _ => true

/-- The close code that a failure carries, which only the upstream's reader gets. -/
def frameOf : Role → Bool → WsError → Option Nat
  | .up, false, .close code => some code
  | _, _, _ => none

namespace Session

variable (s : Session)

def move (r : Role) (pc : Pc) : Session := { s with pc := update s.pc r pc }

/-- Whether the transport of a call makes it return.  The client is read with the context of the
request, so that only its close ends a read; everything else stops with the context of the relay. -/
def broken : Role → Bool → Bool
  | .client, false => s.closed
  | _, _ => s.cancelled

/-- Whether a call that begins now can succeed; the heartbeat's wait for its ticker always can. -/
def live (r : Role) (second : Bool) : Bool := (r, second) = (.heart, false) || !s.broken r second

def setErr (err : WsError) : Role → Bool → Session
  | .client, false | .up, true => { s with clientErr := s.clientErr.or (some err) }
  | .client, true | .up, false => { s with upErr := s.upErr.or (some err) }
  | .heart, _ => { s with pingErr := s.pingErr.or (some err) }

/-- A call of a loop fails with an error, or with the close frame of the upstream. -/
def fail (r : Role) (second : Bool) (err : WsError) : Session :=
  { s.move r (.failed second err) with
    upFailed := s.upFailed || ofUpstream r second
    clientFailed := s.clientFailed || !ofUpstream r second
    frame := s.frame.or (frameOf r second err) }

def terminal : Terminal :=
  let (ending, endErr) := relayClassify s.upClose s.upErr s.clientErr s.pingErr
  ⟨ending, endErr, s.clientErr⟩

end Session

open Session

/-- The goroutines take their steps in any order. -/
inductive Step (s : Session) : Session → Prop where
  | ok {r second} (h : s.pc r = .call second true) :
    Step s (s.move r (.call (!second) (s.live r (!second))))
  | fail {r second live} (err : WsError) (h : s.pc r = .call second live)
    (hcall : (r, second) ≠ (.heart, false)) : Step s (s.fail r second err)
  | stop {live} (h : s.pc .heart = .call false live) (hc : s.cancelled) :
    Step s (s.move .heart .done)
  | recordClose {code} (h : s.pc .up = .failed false (.close code)) :
    Step s { s.move .up .exits with upClose := s.upClose.or (some code) }
  | check {r second err} (h : s.pc r = .failed second err) (hf : frameOf r second err = none) :
    Step s (s.move r (if s.cancelled then .exits else .checked second err))
  | record {r second err} (h : s.pc r = .checked second err) :
    Step s ((s.setErr err r second).move r .exits)
  | send {r} (h : s.pc r = .exits) : Step s { s.move r .sent with ended := true }
  | cancel {r} (h : s.pc r = .sent) :
    Step s { s.move r .done with
      cancelled := true, early := if s.cancelled then s.early else s.clientErr.isSome }
  | classify (h : s.main = .waits) (hend : s.ended) (hup : s.pc .up = .done) :
    Step s { s with main := .closes, log := s.log ++ [s.terminal] }
  | close (h : s.main = .closes) :
    Step s { s with main := .joins, closed := true, cancelled := true }
  | join (h : s.main = .joins) (hdone : ∀ r, s.pc r = .done) : Step s { s with main := .returned }

/-- A step that is bound to come: no call returns in it, unless its transport is cancelled or
closed. -/
def Forced (s s' : Session) : Prop :=
  Step s s' ∧ ∀ r second live, s.pc r = .call second live → s'.pc r = s.pc r ∨ s.broken r second

namespace Session

/-- Some error has been recorded. -/
def marked (s : Session) : Prop :=
  s.upClose.isSome ∨ s.upErr.isSome ∨ s.clientErr.isSome ∨ s.pingErr.isSome

/-- What has come before a loop's position: it records, then tells the session, then cancels. -/
def reached (s : Session) (r : Role) : Pc → Prop
  | .exits => s.marked
  | .sent => s.ended
  | .done => r = .up → s.cancelled
  | _ => True

/-- What a loop's position tells of the calls that have failed and of the upstream's close frame,
which the up loop records on its way out. -/
def tells (s : Session) (r : Role) : Pc → Prop
  | .call .. => r = .up → s.upClose = none ∧ s.frame = none
  | .failed second err => (if ofUpstream r second then s.upFailed else s.clientFailed) = true ∧
      (r = .up → s.upClose = none ∧ s.frame = frameOf r second err)
  | .checked second _ => (if ofUpstream r second then s.upFailed else s.clientFailed) = true ∧
      (r = .up → s.upClose = s.frame)
  | _ => r = .up → s.upClose = s.frame

end Session

/-- Whoever ends the session has recorded an error, the up loop is the last to be waited for, and
the client is closed before the loops are joined. -/
structure Ordered (s : Session) : Prop where
  loops : ∀ r, s.reached r (s.pc r)
  slot : s.ended → s.marked
  ended : s.cancelled → s.ended
  mainDone : s.main ≠ .waits → s.pc .up = .done
  early : s.early → s.clientErr.isSome
  closed : s.main = .joins → s.closed

/-- Each error comes from a call that has failed, and no close frame is lost. -/
structure Sourced (s : Session) : Prop where
  loops : ∀ r, s.tells r (s.pc r)
  upOf : s.upErr.isSome ∨ s.pingErr.isSome ∨ s.upClose.isSome → s.upFailed
  clientOf : s.clientErr.isSome → s.clientFailed

variable {s s' : Session} {r : Role} {p : Pc}

theorem forall_update {P : Role → Pc → Prop} {pc : Role → Pc} (h : ∀ r', r' ≠ r → P r' (pc r'))
    (hp : P r p) (r') : P r' (update pc r p r') := by
  by_cases he : r' = r
  · subst he
    rwa [update_self]
  · rw [update_of_ne he]
    exact h r' he

theorem reached_mono (h : s.reached r p) (hmarked : s.marked → s'.marked)
    (hended : s.ended → s'.ended) (hc : s.cancelled → s'.cancelled) : s'.reached r p := by
  cases p with
  | exits => exact hmarked h
  | sent => exact hended h
  | done => exact hc ∘ h
  | _ => trivial

theorem Ordered.move (h : Ordered s) (hr : s.pc r ≠ .done) (hp : s.reached r p) :
    Ordered (s.move r p) := by
  refine ⟨forall_update (fun r' _ => h.loops r') hp, h.slot, h.ended, fun hmain => ?_, h.early,
    h.closed⟩
  have hup := h.mainDone hmain
  have hne : .up ≠ r := fun he => hr (he ▸ hup)
  exact (update_of_ne hne ..).trans hup

/-- An error or a close frame is recorded. -/
theorem Ordered.mark (h : Ordered s) (hmarked : s'.marked) (hpc : s'.pc = s.pc)
    (hsame : (s'.main, s'.ended, s'.cancelled, s'.closed) =
      (s.main, s.ended, s.cancelled, s.closed))
    (hearly : s'.early → s'.clientErr.isSome) : Ordered s' := by
  simp only [Prod.mk.injEq] at hsame
  obtain ⟨hmain, hended, hc, hclosed⟩ := hsame
  refine ⟨fun r => ?_, fun _ => hmarked, ?_, ?_, hearly, ?_⟩
  · rw [hpc]
    exact reached_mono (h.loops r) (fun _ => hmarked) (hended ▸ id) (hc ▸ id)
  · rw [hc, hended]
    exact h.ended
  · rw [hmain, hpc]
    exact h.mainDone
  · rw [hmain, hclosed]
    exact h.closed

theorem Ordered.step (h : Ordered s) (hs : Step s s') : Ordered s' := by
  cases hs with
  | ok hpc => exact h.move (by simp [hpc]) trivial
  | @fail r second _ err hpc _ =>
    obtain ⟨hloops, hslot, hended, hmain, hearly, hclosed⟩ :=
      h.move (r := r) (p := .failed second err) (by simp [hpc]) trivial
    exact ⟨hloops, hslot, hended, hmain, hearly, hclosed⟩
  | stop hpc hc => exact h.move (by simp [hpc]) fun _ => hc
  | @recordClose code hpc =>
    have hmarked : Session.marked { s with upClose := s.upClose.or (some code) } := .inl (by simp)
    exact (h.mark hmarked rfl rfl h.early).move (by simp [hpc]) hmarked
  | check hpc hf =>
    refine h.move (by simp [hpc]) ?_
    split_ifs with hc
    · exact h.slot (h.ended hc)
    · trivial
  | @record r second err hpc =>
    have hmarked : (s.setErr err r second).marked := by
      cases r <;> cases second <;> simp [Session.marked, Session.setErr]
    have hset : (s.setErr err r second).pc = s.pc ∧ Ordered (s.setErr err r second) := by
      have hearly : s.early → (s.clientErr.or (some err)).isSome := by simp
      cases r <;> cases second <;>
        first
        | exact ⟨rfl, h.mark hmarked rfl rfl h.early⟩
        | exact ⟨rfl, h.mark hmarked rfl rfl hearly⟩
    exact hset.2.move (by simp [hset.1, hpc]) hmarked
  | @send r hpc =>
    have hmarked : s.marked := by simpa [reached, hpc] using h.loops r
    have hend : Ordered { s with ended := true } :=
      ⟨fun r => reached_mono (h.loops r) id (fun _ => rfl) id, fun _ => hmarked, fun _ => rfl,
        h.mainDone, h.early, h.closed⟩
    exact hend.move (by simp [hpc]) rfl
  | @cancel r hpc =>
    have hended : s.ended := by simpa [reached, hpc] using h.loops r
    have hearly : (if s.cancelled then s.early else s.clientErr.isSome) = true →
        s.clientErr.isSome := by
      split_ifs
      exacts [h.early, id]
    have hcancel : Ordered { s with
        cancelled := true, early := if s.cancelled then s.early else s.clientErr.isSome } :=
      ⟨fun r => reached_mono (h.loops r) id id fun _ => rfl, h.slot, fun _ => hended, h.mainDone,
        hearly, h.closed⟩
    exact hcancel.move (by simp [hpc]) fun _ => rfl
  | classify _ _ hup => exact ⟨h.loops, h.slot, h.ended, fun _ => hup, h.early, by simp⟩
  | close hm =>
    have hup := h.mainDone (by simp [hm])
    have hc : s.cancelled := by simpa [reached, hup] using h.loops .up
    exact ⟨fun r => reached_mono (h.loops r) id id fun _ => rfl, h.slot, fun _ => h.ended hc,
      fun _ => hup, h.early, fun _ => rfl⟩
  | join _ hdone => exact ⟨h.loops, h.slot, h.ended, fun _ => hdone .up, h.early, by simp⟩

theorem tells_mono (h : s.tells r p) (hupFailed : s.upFailed → s'.upFailed)
    (hclientFailed : s.clientFailed → s'.clientFailed)
    (hup : r = .up → s'.upClose = s.upClose ∧ s'.frame = s.frame) : s'.tells r p := by
  have hflag : ∀ second, (if ofUpstream r second then s.upFailed else s.clientFailed) = true →
      (if ofUpstream r second then s'.upFailed else s'.clientFailed) = true := by
    intro second
    split_ifs
    exacts [hupFailed, hclientFailed]
  cases p with
  | call => exact fun hr => (hup hr).1 ▸ (hup hr).2 ▸ h hr
  | failed second => exact ⟨hflag second h.1, fun hr => (hup hr).1 ▸ (hup hr).2 ▸ h.2 hr⟩
  | checked second => exact ⟨hflag second h.1, fun hr => (hup hr).1 ▸ (hup hr).2 ▸ h.2 hr⟩
  | _ => exact fun hr => (hup hr).1 ▸ (hup hr).2 ▸ h hr

theorem Sourced.move (h : Sourced s) (hp : s.tells r p) : Sourced (s.move r p) :=
  ⟨forall_update (fun r' _ => h.loops r') hp, h.upOf, h.clientOf⟩

theorem Sourced.tells_of (h : Sourced s) (hpc : s.pc r = p) : s.tells r p := hpc ▸ h.loops r

theorem Sourced.fail {second live : Bool} (h : Sourced s) (hpc : s.pc r = .call second live)
    (err : WsError) : Sourced (s.fail r second err) := by
  have hcall := h.tells_of hpc
  refine ⟨forall_update (fun r' hne => ?_) ⟨?_, fun hr => ?_⟩, fun hup => ?_, fun hclient => ?_⟩
  · refine tells_mono (h.loops r') (by simp +contextual [Session.fail])
      (by simp +contextual [Session.fail]) fun hup => ⟨rfl, ?_⟩
    have hframe : frameOf r second err = none := by
      cases r <;> first | exact absurd hup hne | rfl
    simp [Session.fail, hframe]
  · cases hside : ofUpstream r second <;> simp [Session.fail, hside]
  · obtain ⟨hclose, hframe⟩ := hcall hr
    exact ⟨hclose, by simp [Session.fail, hframe]⟩
  · simp [Session.fail, h.upOf hup]
  · simp [Session.fail, h.clientOf hclient]

theorem Sourced.step (h : Sourced s) (hs : Step s s') : Sourced s' := by
  cases hs with
  | ok hpc =>
    have htells := h.tells_of hpc
    exact h.move htells
  | fail err hpc _ => exact h.fail hpc err
  | stop hpc _ => exact h.move (by simp [tells])
  | @recordClose code hpc =>
    obtain ⟨hflag, hup⟩ := h.tells_of hpc
    obtain ⟨hclose, hframe⟩ := hup rfl
    refine ⟨forall_update (fun r hne => ?_) fun _ => ?_, fun _ => hflag, h.clientOf⟩
    · exact tells_mono (h.loops r) id id fun hr => absurd hr hne
    · change s.upClose.or (some code) = s.frame
      rw [hclose, hframe]
      rfl
  | @check r second err hpc hf =>
    obtain ⟨hflag, hup⟩ := h.tells_of hpc
    have hnone : r = .up → s.upClose = s.frame := fun hr => by
      rw [(hup hr).1, (hup hr).2, hf]
    refine h.move ?_
    split_ifs
    exacts [hnone, ⟨hflag, hnone⟩]
  | @record r second err hpc =>
    obtain ⟨hflag, hup⟩ := h.tells_of hpc
    have hset : Sourced (s.setErr err r second) := by
      cases r <;> cases second
      case up.true | client.false => exact ⟨h.loops, h.upOf, fun _ => hflag⟩
      all_goals exact ⟨h.loops, fun _ => hflag, h.clientOf⟩
    refine hset.move fun hr => ?_
    cases r <;> cases second <;> exact hup hr
  | send hpc =>
    have htells := h.tells_of hpc
    obtain ⟨hloops, hup, hclient⟩ := h.move (p := .sent) htells
    exact ⟨hloops, hup, hclient⟩
  | cancel hpc =>
    have htells := h.tells_of hpc
    obtain ⟨hloops, hup, hclient⟩ := h.move (p := .done) htells
    exact ⟨hloops, hup, hclient⟩
  | classify _ _ _ | close _ | join _ _ => exact ⟨h.loops, h.upOf, h.clientOf⟩

/-- The record says how the session ended. -/
structure Right (s : Session) (t : Terminal) : Prop where
  closed : t.ending = .upstreamClosed ↔ s.frame.any isNormalWSCloseCode
  aborted : t.ending = .clientAbort → s.clientFailed
  early : s.early → t.ending ≠ .upstreamError
  failed : t.ending = .upstreamError → t.clientErr = none ∧ s.upFailed

theorem Sourced.right_terminal (h : Sourced s) (ho : Ordered s) (hend : s.ended)
    (hup : s.pc .up = .done) : Right s s.terminal := by
  have hframe : s.upClose = s.frame := h.tells_of hup rfl
  unfold terminal relayClassify
  by_cases hnormal : s.upClose.any isNormalWSCloseCode
  · rw [if_pos hnormal]
    exact ⟨by simp [← hframe, hnormal], by simp, by simp, by simp⟩
  · by_cases hclient : s.clientErr.isSome
    · rw [if_neg hnormal, if_pos hclient]
      exact ⟨by simp [← hframe, hnormal], fun _ => h.clientOf hclient, by simp, by simp⟩
    · have hup : s.upFailed := by
        apply h.upOf
        rcases ho.slot hend with hclose | herr | hclient' | hping
        · exact .inr (.inr hclose)
        · exact .inl herr
        · exact absurd hclient' hclient
        · exact .inr (.inl hping)
      rw [if_neg hnormal, if_neg hclient]
      exact ⟨by simp [← hframe, hnormal], by simp, fun he => absurd (ho.early he) hclient,
        fun _ => ⟨by simpa using hclient, hup⟩⟩

theorem Right.mono {t : Terminal} (ht : Right s t) (hframe : s'.frame = s.frame)
    (hclient : s.clientFailed → s'.clientFailed) (hup : s.upFailed → s'.upFailed)
    (hearly : s'.early → s.early) : Right s' t :=
  ⟨hframe ▸ ht.closed, hclient ∘ ht.aborted, ht.early ∘ hearly,
    fun h => (ht.failed h).imp_right hup⟩

theorem Right.step {t : Terminal} (ht : Right s t) (h : Ordered s) (hmain : s.main ≠ .waits)
    (hs : Step s s') : Right s' t := by
  have hup := h.mainDone hmain
  have hcancelled : s.cancelled := by simpa [reached, hup] using h.loops .up
  cases hs
  case fail r second live err hpc hcall =>
    have hframe : frameOf r second err = none := by
      cases r
      case up => simp [hup] at hpc
      all_goals rfl
    exact ht.mono (by simp [Session.fail, hframe, move]) (by simp +contextual [Session.fail])
      (by simp +contextual [Session.fail]) id
  case record r second err hpc => cases r <;> cases second <;> exact ht.mono rfl id id id
  case cancel r hpc => exact ht.mono rfl id id (by simp [hcancelled])
  all_goals exact ht.mono rfl id id id

/-- Only the classification writes a record. -/
theorem Step.log_cases (hs : Step s s') :
    s'.log = s.log ∧ (s'.main = .waits ↔ s.main = .waits) ∨
      s.main = .waits ∧ s.ended ∧ s.pc .up = .done ∧
        s' = { s with main := .closes, log := s.log ++ [s.terminal] } := by
  cases hs
  case record r second err _ => cases r <;> cases second <;> exact .inl ⟨rfl, .rfl⟩
  case classify h hend hup => exact .inr ⟨h, hend, hup, rfl⟩
  case close h => exact .inl ⟨rfl, by simp [h]⟩
  case join h _ => exact .inl ⟨rfl, by simp [h]⟩
  all_goals exact .inl ⟨rfl, .rfl⟩

theorem log_right (h : Relation.ReflTransGen Step {} s) :
    Ordered s ∧ Sourced s ∧
      (s.main = .waits ∧ s.log = [] ∨ s.main ≠ .waits ∧ ∃ t, s.log = [t] ∧ Right s t) := by
  induction h with
  | refl =>
    refine ⟨⟨fun _ => trivial, ?_, ?_, ?_, ?_, ?_⟩, ⟨fun _ _ => ⟨rfl, rfl⟩, ?_, ?_⟩,
      .inl ⟨rfl, rfl⟩⟩ <;> simp
  | tail _ hs ih =>
    obtain ⟨hordered, hsourced, hlog⟩ := ih
    refine ⟨hordered.step hs, hsourced.step hs, ?_⟩
    rcases hs.log_cases with ⟨hsame, hmain'⟩ | ⟨hwaits, hend, hup, rfl⟩
    · rw [hsame, ne_eq, hmain']
      exact hlog.imp_right fun ⟨hmain, t, ht, hright⟩ =>
        ⟨hmain, t, ht, hright.step hordered hmain hs⟩
    · have hempty := (hlog.resolve_right fun h => h.1 hwaits).2
      obtain ⟨hclosed, haborted, hearly, hfailed⟩ :=
        hsourced.right_terminal hordered hend hup
      exact .inr ⟨by simp, _, by rw [hempty, List.nil_append], hclosed, haborted, hearly, hfailed⟩

/-- A bound on the steps that a goroutine can still make once the session is broken. -/
def rank (r : Role) : Pc → Nat
  | .done => 0
  | .sent => 1
  | .exits => 2
  | .checked .. => 3
  | .failed .. => 4
  | .call second live =>
    if r ≠ .up ∧ !second then 6 else if !live then 5 else if r = .up then 6 else 7

def Main.rank : Main → Nat
  | .waits => 3
  | .closes => 2
  | .joins => 1
  | .returned => 0

/-- How many steps a cancelled session can still take, at most. -/
def Session.steps (s : Session) : Nat :=
  rank .client (s.pc .client) + rank .up (s.pc .up) + rank .heart (s.pc .heart) + s.main.rank

theorem steps_move_lt {r : Role} {p : Pc} (h : rank r p < rank r (s.pc r)) :
    (s.move r p).steps < s.steps := by
  simp only [Session.steps, move, update_apply]
  cases r <;> simp only [reduceCtorEq, if_true, if_false] <;> omega

theorem Step.steps_lt (hs : Step s s') (hc : s.cancelled) : s'.steps < s.steps := by
  cases hs
  case ok r second h =>
    refine steps_move_lt ?_
    rw [h]
    cases r <;> cases second <;> simp [rank, Session.live, broken, hc]
  case fail r second live err h hcall =>
    refine steps_move_lt (r := r) ?_
    rw [h]
    simp only [rank]
    repeat' split
    all_goals decide
  case stop live h _ => exact steps_move_lt (by simp [rank, h])
  case recordClose code h =>
    exact steps_move_lt (s := s) (r := .up) (p := .exits) (by simp [rank, h])
  case check r second err h hf => exact steps_move_lt (by simp [rank, h, hc])
  case record r second err h =>
    have hmove : ((s.setErr err r second).move r .exits).steps = (s.move r .exits).steps := by
      cases r <;> cases second <;> rfl
    rw [hmove]
    exact steps_move_lt (by simp [rank, h])
  case send r h => exact steps_move_lt (r := r) (by simp [rank, h])
  case cancel r h => exact steps_move_lt (r := r) (by simp [rank, h])
  all_goals
    simp only [Session.steps, *]
    exact Nat.lt_succ_self _

/-- A step that moves one loop is forced, unless it ends a call on a live transport. -/
theorem Step.forced (hs : Step s s') (hpc : s'.pc = update s.pc r p)
    (hended : ∀ second live, s.pc r = .call second live → s.broken r second) : Forced s s' := by
  refine ⟨hs, fun r' second live hcall => ?_⟩
  by_cases he : r' = r
  · subst he
    exact .inr (hended second live hcall)
  · exact .inl (by rw [hpc, update_of_ne he])

/-- A loop that is not done goes on, once its transports are cancelled or closed. -/
theorem exists_forced (hr : s.pc r ≠ .done) (hended : ∀ second, s.broken r second)
    (hc : s.cancelled) : ∃ s', Forced s s' := by
  cases hpc : s.pc r with
  | call second live =>
    by_cases hcall : (r, second) = (.heart, false)
    · cases hcall
      exact ⟨_, (Step.stop hpc hc).forced rfl fun _ _ _ => hended _⟩
    · exact ⟨_, (Step.fail (.other "") hpc hcall).forced rfl fun _ _ _ => hended _⟩
  | failed second err =>
    cases hf : frameOf r second err with
    | none => exact ⟨_, (Step.check hpc hf).forced rfl fun _ _ _ => hended _⟩
    | some code =>
      cases r <;> cases second <;> cases err <;> cases hf
      exact ⟨_, (Step.recordClose hpc).forced rfl fun _ _ _ => hended _⟩
  | checked second err =>
    have hmove : ((s.setErr err r second).move r .exits).pc = update s.pc r .exits := by
      cases r <;> cases second <;> rfl
    exact ⟨_, (Step.record hpc).forced hmove fun _ _ _ => hended _⟩
  | exits => exact ⟨_, (Step.send hpc).forced rfl fun _ _ _ => hended _⟩
  | sent => exact ⟨_, (Step.cancel hpc).forced rfl fun _ _ _ => hended _⟩
  | done => exact absurd hpc hr

/-- The up loop stops with the context; then the session is classified and the client closed, which
ends the read of the client loop. -/
theorem Ordered.progress (h : Ordered s) (hc : s.cancelled) (hmain : s.main ≠ .returned) :
    ∃ s', Forced s s' := by
  by_cases hup : s.pc .up = .done
  · cases hm : s.main with
    | waits => exact ⟨_, .classify hm (h.ended hc) hup, fun _ _ _ _ => .inl rfl⟩
    | closes => exact ⟨_, .close hm, fun _ _ _ _ => .inl rfl⟩
    | joins =>
      by_cases hdone : ∀ r, s.pc r = .done
      · exact ⟨_, .join hm hdone, fun _ _ _ _ => .inl rfl⟩
      · obtain ⟨r, hr⟩ := not_forall.mp hdone
        have hended : ∀ second, s.broken r second := by
          intro second
          cases r <;> cases second <;> first | exact h.closed hm | exact hc
        exact exists_forced hr hended hc
    | returned => exact absurd hm hmain
  · exact exists_forced hup (fun _ => hc) hc

/-- Every session makes at most one terminal record, which is right, and has made it when it
returns; from the first cancellation on it takes at most `steps` further steps, and until it returns
there is one that does not wait for a live peer. -/
theorem relay_race {s : Session} (h : Relation.ReflTransGen Step {} s) :
    s.log.length ≤ 1 ∧ (s.main = .returned → s.log.length = 1) ∧ (∀ t ∈ s.log, Right s t) ∧
      (s.cancelled → (∀ s', Step s s' → s'.steps < s.steps) ∧
        (s.main ≠ .returned → ∃ s', Forced s s')) := by
  obtain ⟨hordered, -, hlog⟩ := log_right h
  refine ⟨?_, ?_, ?_, fun hc => ⟨fun _ hs => hs.steps_lt hc, hordered.progress hc⟩⟩
  · rcases hlog with ⟨-, hlog⟩ | ⟨-, t, hlog, -⟩ <;> simp [hlog]
  · intro hmain
    rcases hlog with ⟨hwaits, -⟩ | ⟨-, t, hlog, -⟩
    · rw [hmain] at hwaits
      cases hwaits
    · rw [hlog, List.length_singleton]
  · rcases hlog with ⟨-, hlog⟩ | ⟨-, t, hlog, hright⟩
    · simp [hlog]
    · simpa [hlog] using hright

/-- The client loop fails to write because the upstream has closed; its error is recorded first. -/
theorem relay_race_closed : ∃ s : Session, s.upErr.isSome ∧
    (∃ t, s.log = [t] ∧ t.ending = .upstreamClosed) ∧ s.log.length ≤ 1 := by
  have hrun : Relation.ReflTransGen Step {} _ :=
    .tail (.tail (.tail (.tail (.tail (.tail (.tail (.tail (.tail .refl
      (.ok (r := .client) rfl)) (.fail (r := .client) (.other "closed") rfl (by simp)))
      (.fail (r := .up) (.close 1000) rfl (by simp))) (.check (r := .client) rfl rfl))
      (.record (r := .client) rfl)) (.recordClose rfl)) (.send (r := .up) rfl))
      (.cancel (r := .up) rfl)) (.classify rfl rfl rfl)
  exact ⟨_, rfl, ⟨_, rfl, rfl⟩, (relay_race hrun).1⟩

end C4Gateway.Proxy.Race
