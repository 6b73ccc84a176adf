import C4Gateway.Lib.Rank
import Mathlib.Data.Finset.Basic

/-! The debouncer of management changes.  Calls of `mark` merge what they change into a dirty state
with a compare-and-swap loop, and the one that finds it empty wakes the loop through a channel of
capacity one.  The loop arms a timer, and when it fires reloads what is dirty, again and again until
nothing is.  Every load, compare-and-swap, send, receive and swap is a step. -/

namespace C4Gateway.Invalidate

open List

abbrev Kind := BitVec 8

def kindUsers : Kind := 1

def kindTemplates : Kind := 2

def kindClients : Kind := 4

def kindMultipliers : Kind := 8

def kindKeys : Kind := 16

def kindSettings : Kind := 32

def kindRules : Kind := 64

/-- The kinds that changed, and the groups where only groups changed. -/
structure Dirty where
  kinds : Kind
  groups : Finset Int
  deriving DecidableEq

/-- The state with a change in it. -/
def Dirty.merge (old : Option Dirty) (k : Kind) (gids : List Int) : Dirty where
  kinds := k ||| (old.map Dirty.kinds).getD 0
  groups := (old.map Dirty.groups).getD ∅ ∪ gids.toFinset

/-- The state has a change in it. -/
def Dirty.Contains (st : Dirty) (k : Kind) (gids : List Int) : Prop :=
  k &&& st.kinds = k ∧ ∀ g ∈ gids, g ∈ st.groups

theorem contains_merge (old : Option Dirty) (k : Kind) (gids : List Int) :
    (Dirty.merge old k gids).Contains k gids := by
  refine ⟨?_, fun g hg => by simp [Dirty.merge, hg]⟩
  ext i hi
  simp only [Dirty.merge, BitVec.getElem_and, BitVec.getElem_or]
  cases k[i] <;> simp

variable {gids : List Int}

theorem Dirty.Contains.merge {st : Dirty} {k : Kind} (h : st.Contains k gids)
    (k' : Kind) (gids' : List Int) : (Dirty.merge (some st) k' gids').Contains k gids := by
  refine ⟨?_, fun g hg => Finset.mem_union_left _ (h.2 g hg)⟩
  ext i hi
  have hbit := congrArg (·[i]) h.1
  simp only [Dirty.merge] at hbit ⊢
  cases hk : k[i] <;> simp_all

/-! ### Reloads -/

/-- The targets that `New` is given besides the ones it needs. -/
structure Config where
  balances : Bool
  settings : Bool
  rules : Bool

/-- What a flush reloads. -/
inductive Target where
  | auth
  | balances
  | schedAll
  | schedGroup (gid : Int)
  | clients
  | multipliers
  | settings
  | rules
  deriving DecidableEq

/-- Whether a reload of the state reloads a target. -/
def reloadAll (cfg : Config) (st : Dirty) : Target → Bool
  | .auth => st.kinds &&& kindUsers ≠ 0 || st.kinds &&& kindKeys ≠ 0
  | .balances => st.kinds &&& kindUsers ≠ 0 && cfg.balances
  | .schedAll => st.kinds &&& kindTemplates ≠ 0
  | .schedGroup gid => gid ∈ st.groups && st.kinds &&& kindTemplates = 0
  | .clients => st.kinds &&& (kindTemplates ||| kindClients) ≠ 0
  | .multipliers => st.kinds &&& kindMultipliers ≠ 0 && cfg.balances
  | .settings => st.kinds &&& kindSettings ≠ 0 && cfg.settings
  | .rules => st.kinds &&& kindRules ≠ 0 && cfg.rules

theorem and_ne_zero_of_contains {st : Dirty} {k : Kind} (h : st.Contains k gids)
    {b : Kind} (hb : k &&& b ≠ 0) : st.kinds &&& b ≠ 0 := by
  intro hzero
  rw [← h.1, BitVec.and_assoc, hzero] at hb
  exact hb BitVec.and_zero

/-- A reload with a change in it reloads what the change alone would; the reload of a group may be
one of all groups. -/
theorem reloadAll_covers (cfg : Config) {st : Dirty} {k : Kind} {t : Target}
    (h : st.Contains k gids) (ht : reloadAll cfg ⟨k, gids.toFinset⟩ t = true) :
    reloadAll cfg st t = true ∨
      (∃ gid, t = .schedGroup gid) ∧ reloadAll cfg st .schedAll = true := by
  have hkinds := fun b hb => and_ne_zero_of_contains h (b := b) hb
  cases t with
  | schedGroup gid =>
    simp only [reloadAll, Bool.and_eq_true, decide_eq_true_eq, mem_toFinset] at ht ⊢
    by_cases hall : st.kinds &&& kindTemplates = 0
    · exact .inl ⟨h.2 gid ht.1, hall⟩
    · exact .inr ⟨⟨gid, rfl⟩, hall⟩
  | auth =>
    simp only [reloadAll, Bool.or_eq_true, decide_eq_true_eq] at ht ⊢
    exact .inl (ht.imp (hkinds _) (hkinds _))
  | schedAll | clients =>
    simp only [reloadAll, decide_eq_true_eq] at ht ⊢
    exact .inl (hkinds _ ht)
  | balances | multipliers | settings | rules =>
    simp only [reloadAll, Bool.and_eq_true, decide_eq_true_eq] at ht ⊢
    exact .inl ⟨hkinds _ ht.1, ht.2⟩

/-! ### The steps -/

/-- A state that the pointer points to.  Every allocation has a pointer of its own. -/
structure Cell where
  ptr : Nat
  dirty : Dirty
  deriving DecidableEq

/-- Where a call of `mark` is. -/
inductive CallPhase where
  | load
  | cas (old : Option Cell)
  | send
  | done
  deriving DecidableEq

/-- A notification on its way into the debouncer. -/
structure Call where
  kinds : Kind
  gids : List Int
  phase : CallPhase
  deriving DecidableEq

/-- Where the loop is: in its `select`, after a receive, before a swap of `flush` (the first one or
a later one), in a reload, or before the check that follows it. -/
inductive LoopPhase where
  | select
  | woken
  | swap (again : Bool)
  | reload (st : Dirty)
  | recheck
  | panicked
  deriving DecidableEq

/-- `started` are the states that reloads have started with. -/
structure Debouncer where
  state : Option Cell
  wake : Bool
  timer : Bool
  loop : LoopPhase
  calls : List Call
  fresh : Nat
  started : List Dirty

/-- `receive` and `fire` are the two cases of the `select`. -/
inductive Op where
  | mark (k : Kind) (gids : List Int)
  | call (i : Nat)
  | receive
  | fire
  | loop

namespace Debouncer

def new : Debouncer where
  state := none
  wake := false
  timer := false
  loop := .select
  calls := []
  fresh := 0
  started := []

def setPhase (d : Debouncer) (i : Nat) (c : Call) (phase : CallPhase) : Debouncer :=
  { d with calls := d.calls.set i { c with phase } }

/-- The next step of a call. -/
def callStep (d : Debouncer) (i : Nat) (c : Call) : Debouncer :=
  match c.phase with
  | .load => d.setPhase i c (.cas d.state)
  | .cas old =>
    if d.state = old then
      { d.setPhase i c (if old.isNone then .send else .done) with
        state := some ⟨d.fresh, .merge (old.map Cell.dirty) c.kinds c.gids⟩
        fresh := d.fresh + 1 }
    else d.setPhase i c .load
  | .send => { d.setPhase i c .done with wake := true }
  | .done => d

/-- The next step of the loop outside its `select`. -/
def loopStep (d : Debouncer) : Debouncer :=
  match d.loop with
  | .woken => { d with loop := .select, timer := d.timer || d.state.isSome }
  | .swap again =>
    match d.state with
    | some c => { d with state := none, loop := .reload c.dirty, started := d.started ++ [c.dirty] }
    | none => { d with loop := if again then .panicked else .select }
  | .reload _ => { d with loop := .recheck }
  | .recheck => { d with loop := if d.state.isSome then .swap true else .select }
  | .select | .panicked => d

def step (d : Debouncer) : Op → Debouncer
  | .mark k gids => { d with calls := d.calls ++ [⟨k, gids, .load⟩] }
  | .call i =>
    match d.calls[i]? with
    | some c => d.callStep i c
    | none => d
  | .receive =>
    if d.loop = .select ∧ d.wake then { d with wake := false, loop := .woken } else d
  | .fire =>
    if d.loop = .select ∧ d.timer then { d with timer := false, loop := .swap false } else d
  | .loop => d.loopStep

/-! ### Invariants -/

variable {d : Debouncer} {op : Op}

/-- The calls that have yet to send their wake-up. -/
def pending (d : Debouncer) : Nat := d.calls.countP (·.phase = .send)

/-- While something is dirty, the loop is under way or will be woken. -/
structure Inv (d : Debouncer) : Prop where
  armed : d.timer = true → d.state.isSome ∧ (d.loop = .select ∨ d.loop = .woken)
  swapping : ∀ again, d.loop = .swap again → d.state.isSome
  alive : d.loop ≠ .panicked
  awake : d.state.isSome → d.loop = .select → d.timer = true ∨ d.wake = true ∨ 0 < d.pending

theorem inv_new : Inv new := ⟨by simp [new], by simp [new], by simp [new], by simp [new]⟩

variable (i : Nat) (c : Call) (p : CallPhase)

theorem pending_setPhase {i : Nat} {c : Call} (hc : d.calls[i]? = some c) (p : CallPhase) :
    (d.setPhase i c p).pending + (if c.phase = .send then 1 else 0) =
      d.pending + if p = .send then 1 else 0 := by
  obtain ⟨hi, rfl⟩ := List.getElem?_eq_some_iff.mp hc
  have hpos : d.calls[i].phase = .send → 0 < d.pending := fun hsend =>
    List.countP_pos_iff.mpr ⟨_, List.getElem_mem hi, by simpa using hsend⟩
  simp only [pending, setPhase, countP_set, hi, decide_eq_true_eq] at hpos ⊢
  by_cases hsend : d.calls[i].phase = .send
  · have := hpos hsend
    simp only [hsend, if_true]
    omega
  · simp [hsend]

/-- What a step of a call does to the state and the channel. -/
theorem callStep_cases {i : Nat} {c : Call} (hc : d.calls[i]? = some c) :
    (c.phase ≠ .send ∧ (d.callStep i c).state = d.state ∧ (d.callStep i c).wake = d.wake ∧
      (d.callStep i c).pending = d.pending) ∨
    (c.phase = .cas d.state ∧ (d.callStep i c).wake = d.wake ∧
      (d.callStep i c).state =
        some ⟨d.fresh, .merge (d.state.map Cell.dirty) c.kinds c.gids⟩ ∧
      (d.callStep i c).pending = d.pending + if d.state.isNone then 1 else 0) ∨
    (c.phase = .send ∧ (d.callStep i c).state = d.state ∧ (d.callStep i c).wake = true ∧
      (d.callStep i c).pending + 1 = d.pending) := by
  have hpending := fun p => pending_setPhase hc p
  unfold callStep
  cases hphase : c.phase with
  | load =>
    refine .inl ⟨by simp, rfl, rfl, ?_⟩
    simpa [hphase] using hpending (.cas d.state)
  | cas old =>
    dsimp only
    split
    · next hsame =>
      subst hsame
      refine .inr (.inl ⟨rfl, rfl, rfl, ?_⟩)
      have h := hpending (if d.state.isNone then .send else .done)
      rw [hphase] at h
      show (d.setPhase i c (if d.state.isNone then .send else .done)).pending = _
      cases hstate : d.state <;> simpa [hstate] using h
    · refine .inl ⟨by simp, rfl, rfl, ?_⟩
      simpa [hphase] using hpending .load
  | send =>
    refine .inr (.inr ⟨rfl, rfl, rfl, ?_⟩)
    have h := hpending .done
    rw [hphase] at h
    exact h
  | done => exact .inl ⟨by simp, rfl, rfl, rfl⟩

@[simp] theorem callStep_frame : (d.callStep i c).loop = d.loop ∧
    (d.callStep i c).timer = d.timer ∧ (d.callStep i c).started = d.started := by
  unfold callStep
  split
  on_goal 2 => split
  all_goals exact ⟨rfl, rfl, rfl⟩

theorem callStep_isSome {i : Nat} {c : Call} (hc : d.calls[i]? = some c) (h : d.state.isSome) :
    (d.callStep i c).state.isSome := by
  rcases callStep_cases hc with ⟨-, hstate, -⟩ | ⟨-, -, hstate, -⟩ | ⟨-, hstate, -⟩
  · rwa [hstate]
  · simp [hstate]
  · rwa [hstate]

theorem inv_callStep {i : Nat} {c : Call} (h : Inv d) (hc : d.calls[i]? = some c) :
    Inv (d.callStep i c) where
  armed := by
    simp only [callStep_frame]
    exact fun ht => ⟨callStep_isSome hc (h.armed ht).1, (h.armed ht).2⟩
  swapping := by
    simp only [callStep_frame]
    exact fun again hloop => callStep_isSome hc (h.swapping again hloop)
  alive := by
    simp only [callStep_frame]
    exact h.alive
  awake := by
    simp only [callStep_frame]
    intro hsome hloop
    rcases callStep_cases hc with ⟨-, hstate, hwake, hpending⟩ | ⟨-, hwake, -, hpending⟩ |
      ⟨-, hstate, hwake, -⟩
    · rw [hwake, hpending]
      exact h.awake (hstate ▸ hsome) hloop
    · rw [hwake, hpending]
      cases hold : d.state with
      | none => simp
      | some cell =>
        simpa using h.awake (by simp [hold]) hloop
    · exact .inr (.inl hwake)

/-- What a step of the loop outside its `select` does. -/
theorem loopStep_cases (h : Inv d) :
    d.loop = .select ∧ d.loopStep = d ∨
    d.loop = .woken ∧ d.loopStep = { d with loop := .select, timer := d.timer || d.state.isSome } ∨
    (∃ again c, d.loop = .swap again ∧ d.state = some c ∧ d.loopStep =
      { d with state := none, loop := .reload c.dirty, started := d.started ++ [c.dirty] }) ∨
    (∃ st, d.loop = .reload st ∧ d.loopStep = { d with loop := .recheck }) ∨
    d.loop = .recheck ∧ d.loopStep =
      { d with loop := if d.state.isSome then .swap true else .select } := by
  unfold loopStep
  cases hloop : d.loop with
  | select => exact .inl ⟨rfl, rfl⟩
  | woken => exact .inr (.inl ⟨rfl, rfl⟩)
  | swap again =>
    obtain ⟨c, hc⟩ := Option.isSome_iff_exists.mp (h.swapping again hloop)
    refine .inr (.inr (.inl ⟨again, c, rfl, hc, ?_⟩))
    rw [hc]
  | reload st => exact .inr (.inr (.inr (.inl ⟨st, rfl, rfl⟩)))
  | recheck => exact .inr (.inr (.inr (.inr ⟨rfl, rfl⟩)))
  | panicked => exact absurd hloop h.alive

theorem inv_loopStep (h : Inv d) : Inv d.loopStep := by
  have htimer : d.loop ≠ .select → d.loop ≠ .woken → d.timer = false := fun hs hw =>
    Bool.eq_false_iff.mpr fun ht => (h.armed ht).2.elim hs hw
  rcases loopStep_cases h with ⟨-, heq⟩ | ⟨hloop, heq⟩ | ⟨again, c, hloop, hstate, heq⟩ |
    ⟨st, hloop, heq⟩ | ⟨hloop, heq⟩
  · rwa [heq]
  · rw [heq]
    refine ⟨fun ht => ?_, by simp, by simp, fun hsome _ => .inl (by simp [hsome])⟩
    rw [Bool.or_eq_true] at ht
    exact ⟨ht.elim (fun ht => (h.armed ht).1) id, .inl rfl⟩
  all_goals
    have hoff := htimer (by simp [hloop]) (by simp [hloop])
    rw [heq]
  iterate 2 exact ⟨by simp [hoff], by simp, by simp, by simp⟩
  cases hstate : d.state.isSome with
  | true => exact ⟨by simp [hoff], by simp [hstate], by simp, by simp⟩
  | false => exact ⟨by simp [hoff], by simp, by simp, by simp [hstate]⟩

theorem inv_step (h : Inv d) (op : Op) : Inv (d.step op) := by
  cases op with
  | mark k gids =>
    refine ⟨h.armed, h.swapping, h.alive, fun hsome hloop => ?_⟩
    rcases h.awake hsome hloop with ht | hw | hp
    · exact .inl ht
    · exact .inr (.inl hw)
    · exact .inr (.inr (by simpa [step, pending] using hp))
  | call i =>
    simp only [step]
    split
    · next c hc => exact inv_callStep h hc
    · exact h
  | receive =>
    simp only [step]
    split
    · exact ⟨fun ht => ⟨(h.armed ht).1, .inr rfl⟩, by simp, by simp, by simp⟩
    · exact h
  | fire =>
    simp only [step]
    split
    · next hfire =>
      exact ⟨by simp, fun _ _ => (h.armed hfire.2).1, by simp, by simp⟩
    · exact h
  | loop => exact inv_loopStep h

/-! ### Progress -/

def phaseRank : LoopPhase → Nat
  | .select | .recheck => 2
  | .woken | .reload _ => 3
  | .swap _ => 1
  | .panicked => 0

/-- While the same state is dirty, the loop and the senders can take at most so many steps. -/
def rank (d : Debouncer) : Nat :=
  3 * d.pending + (if d.wake then 2 else 0) + phaseRank d.loop

/-- A step of the loop, or the send of a call. -/
def works (d : Debouncer) : Op → Bool
  | .mark _ _ => false
  | .call i => d.calls[i]?.any (·.phase = .send)
  | .receive => d.loop = .select && d.wake
  | .fire => d.loop = .select && d.timer
  | .loop => d.loop ≠ .select && d.loop ≠ .panicked

/-- The change is in the dirty state. -/
def Waiting (k : Kind) (gids : List Int) (n : Nat) (d : Debouncer) : Prop :=
  d.Inv ∧ n ≤ d.started.length ∧ ∃ c, d.state = some c ∧ c.dirty.Contains k gids

/-- A reload with the change has started after the first `n`. -/
def Reloaded (k : Kind) (gids : List Int) (n : Nat) (d : Debouncer) : Prop :=
  ∃ st ∈ d.started.drop n, st.Contains k gids

variable {k : Kind} {gids : List Int} {n : Nat}

section
variable (h : Waiting k gids n d)
include h

theorem Waiting.callStep {i : Nat} {c : Call} (hc : d.calls[i]? = some c) :
    Waiting k gids n (d.callStep i c) ∧
      (d.callStep i c).rank + (if c.phase = .send then 1 else 0) ≤ d.rank := by
  obtain ⟨hinv, hlen, cell, hcell, hcontains⟩ := h
  have hinv' := inv_callStep hinv hc
  simp only [Waiting, rank, callStep_frame]
  rcases callStep_cases hc with ⟨hphase, hstate, hwake, hpending⟩ |
    ⟨hphase, hwake, hstate, hpending⟩ | ⟨hphase, hstate, hwake, hpending⟩
  · rw [hstate, hwake, hpending, if_neg hphase]
    exact ⟨⟨hinv', hlen, cell, hcell, hcontains⟩, Nat.le_refl _⟩
  · have hsend : c.phase ≠ .send := by simp [hphase]
    rw [hwake, hpending, if_neg hsend]
    refine ⟨⟨hinv', hlen, _, hstate, ?_⟩, by simp [hcell]⟩
    rw [hcell]
    exact hcontains.merge c.kinds c.gids
  · rw [hstate, hwake, if_pos hphase]
    refine ⟨⟨hinv', hlen, cell, hcell, hcontains⟩, ?_⟩
    simp only [if_true]
    omega

theorem Waiting.loopStep :
    Reloaded k gids n d.loopStep ∨
      Waiting k gids n d.loopStep ∧
        d.loopStep.rank + (if d.works .loop then 1 else 0) ≤ d.rank := by
  obtain ⟨hinv, hlen, cell, hcell, hcontains⟩ := h
  have hinv' := inv_loopStep hinv
  rcases loopStep_cases hinv with ⟨hloop, heq⟩ | ⟨hloop, heq⟩ | ⟨again, c, hloop, hstate, heq⟩ |
    ⟨st, hloop, heq⟩ | ⟨hloop, heq⟩
  on_goal 3 =>
    left
    cases hcell.symm.trans hstate
    refine ⟨cell.dirty, ?_, hcontains⟩
    rw [heq, drop_append_of_le_length hlen]
    simp
  all_goals
    rw [heq] at hinv' ⊢
    refine .inr ⟨⟨hinv', hlen, cell, hcell, hcontains⟩, ?_⟩
    simp [rank, pending, works, hloop, phaseRank, hcell]

theorem Waiting.step (op : Op) :
    Reloaded k gids n (d.step op) ∨
      Waiting k gids n (d.step op) ∧ (d.step op).rank + (if d.works op then 1 else 0) ≤ d.rank := by
  have hinv' := inv_step h.1 op
  cases op with
  | mark k' gids' =>
    have hsame : (d.step (.mark k' gids')).pending = d.pending := by
      simp [pending, Debouncer.step]
    refine .inr ⟨⟨hinv', h.2⟩, ?_⟩
    rw [rank, hsame]
    exact Nat.le_refl _
  | call i =>
    cases hc : d.calls[i]? with
    | none => exact .inr (by simpa [Debouncer.step, works, hc] using h)
    | some c =>
      right
      simpa [Debouncer.step, works, hc] using h.callStep hc
  | receive | fire =>
    right
    simp only [Debouncer.step, works, Bool.and_eq_true, decide_eq_true_eq] at hinv' ⊢
    split_ifs at hinv' ⊢ with hready
    · exact ⟨⟨hinv', h.2⟩, by simp [rank, pending, hready, phaseRank]⟩
    · exact ⟨h, le_refl _⟩
  | loop => exact h.loopStep

theorem exists_works : ∃ op, d.works op = true := by
  obtain ⟨hinv, -, cell, hcell, -⟩ := h
  cases hloop : d.loop with
  | select =>
    rcases hinv.awake (by simp [hcell]) hloop with htimer | hwake | hpending
    · exact ⟨.fire, by simp [works, hloop, htimer]⟩
    · exact ⟨.receive, by simp [works, hloop, hwake]⟩
    · obtain ⟨c, hc, hsend⟩ := countP_pos_iff.mp hpending
      obtain ⟨i, hi⟩ := mem_iff_getElem?.mp hc
      exact ⟨.call i, by simpa [works, hi] using hsend⟩
  | woken | swap again | reload st | recheck => exact ⟨.loop, by simp [works, hloop]⟩
  | panicked => exact absurd hloop hinv.alive

end

theorem step_started (h : Inv d) (op : Op) :
    (d.step op).started = d.started ∨
      ∃ again c, d.loop = .swap again ∧ d.state = some c ∧
        (d.step op).loop = .reload c.dirty ∧ (d.step op).started = d.started ++ [c.dirty] := by
  cases op with
  | mark k gids => exact .inl rfl
  | call i =>
    left
    simp only [step]
    split <;> simp
  | receive | fire =>
    left
    simp only [step]
    split <;> rfl
  | loop =>
    simp only [step]
    rcases loopStep_cases h with ⟨-, heq⟩ | ⟨-, heq⟩ | ⟨again, c, hloop, hstate, heq⟩ |
      ⟨st, -, heq⟩ | ⟨-, heq⟩ <;> rw [heq]
    on_goal 3 => exact .inr ⟨again, c, hloop, hstate, rfl, rfl⟩
    all_goals exact .inl rfl

theorem Reloaded.step (h : Inv d) (hr : Reloaded k gids n d) (op : Op) :
    Reloaded k gids n (d.step op) := by
  obtain ⟨st, hst, hcontains⟩ := hr
  refine ⟨st, ?_, hcontains⟩
  rcases step_started h op with heq | ⟨-, c, -, -, -, heq⟩
  · rwa [heq]
  · rw [heq, drop_append]
    exact mem_append_left _ hst

/-! ### Runs -/

def after (ops : List Op) : Debouncer := ops.foldl step new

/-- The step is the compare-and-swap of a call, and it succeeds. -/
def Merges (d : Debouncer) (op : Op) : Prop :=
  ∃ i c, op = .call i ∧ d.calls[i]? = some c ∧ c.phase = .cas d.state

theorem inv_after (ops : List Op) : Inv (after ops) :=
  Run.states_inv Inv (fun _ op h => inv_step h op) inv_new _ Run.foldl_mem_states

theorem after_append (ops ops' : List Op) : after (ops ++ ops') = ops'.foldl step (after ops) :=
  foldl_append

/-- The change is in the state right after its compare-and-swap. -/
theorem waiting_callStep {i : Nat} {c : Call} (h : Inv d) (hc : d.calls[i]? = some c)
    (hcas : c.phase = .cas d.state) :
    Waiting c.kinds c.gids d.started.length (d.callStep i c) := by
  refine ⟨inv_callStep h hc, by simp, ?_⟩
  rcases callStep_cases hc with ⟨-, -, -, -⟩ | ⟨-, -, hstate, -⟩ | ⟨hphase, -⟩
  · refine ⟨⟨d.fresh, .merge (d.state.map Cell.dirty) c.kinds c.gids⟩, ?_, contains_merge _ _ _⟩
    simp [callStep, hcas]
  · exact ⟨_, hstate, contains_merge _ _ _⟩
  · simp [hcas] at hphase

theorem reloaded_or_working (h : Waiting k gids n d) (ops : List Op) :
    Reloaded k gids n (ops.foldl step d) ∨
      Rank.work step works d ops < d.rank + 1 ∧ ∃ op, (ops.foldl step d).works op = true := by
  have hgoal : ∀ (d : Debouncer) (op : Op), Inv d ∧ Reloaded k gids n d →
      Inv (d.step op) ∧ Reloaded k gids n (d.step op) :=
    fun d op hd => ⟨inv_step hd.1 op, hd.2.step hd.1 op⟩
  have hstep : ∀ (d : Debouncer) (op : Op), Waiting k gids n d → True →
      (Inv (d.step op) ∧ Reloaded k gids n (d.step op)) ∨ Waiting k gids n (d.step op) ∧
        (d.step op).rank + (if d.works op then 1 else 0) ≤ d.rank :=
    fun d op hd _ => (hd.step op).imp_left fun hr => ⟨inv_step hd.1 op, hr⟩
  have hops : Run.Each step (fun _ _ => True) d ops := Run.Each.of_forall fun _ _ => trivial
  have hrun := Rank.reached_or_le hgoal hstep h hops
  rcases hrun with ⟨-, hreloaded⟩ | ⟨hwaiting, hrank⟩
  · exact .inl hreloaded
  · exact .inr ⟨by omega, exists_works hwaiting⟩

theorem state_step_none (h : Inv d) (hnone : d.state = none) (hop : ¬Merges d op) :
    (d.step op).state = none := by
  cases op with
  | mark k gids => exact hnone
  | call i =>
    cases hc : d.calls[i]? with
    | none => simpa [step, hc] using hnone
    | some c =>
      simp only [step, hc]
      rcases callStep_cases hc with ⟨-, hstate, -⟩ | ⟨hcas, -⟩ | ⟨-, hstate, -⟩
      · rw [hstate, hnone]
      · exact absurd ⟨i, c, rfl, hc, hcas⟩ hop
      · rw [hstate, hnone]
  | receive | fire =>
    simp only [step]
    split <;> exact hnone
  | loop =>
    simp only [step]
    rcases loopStep_cases h with ⟨-, heq⟩ | ⟨-, heq⟩ | ⟨again, c, hloop, hstate, heq⟩ |
      ⟨st, -, heq⟩ | ⟨-, heq⟩ <;> rw [heq]
    all_goals exact hnone

/-- With nothing dirty and no change merged, no reload starts. -/
theorem started_foldl {ops : List Op} (h : Inv d) (hnone : d.state = none)
    (hops : Run.Each step (fun d op => ¬Merges d op) d ops) :
    (ops.foldl step d).started = d.started := by
  induction ops generalizing d with
  | nil => rfl
  | cons op ops ih =>
    rw [foldl_cons, ih (inv_step h op) (state_step_none h hnone hops.1) hops.2]
    rcases step_started h op with heq | ⟨-, c, -, hstate, -⟩
    · exact heq
    · simp [hnone] at hstate

/-- Each change that is merged is in a reload that starts later: until then the loop or a sender can
take a step, and they take only so many.  A reload starts only when none is running and something is
dirty. -/
theorem marks_reloaded :
    (∀ ops i c, (after ops).calls[i]? = some c → c.phase = .cas (after ops).state →
      ∃ bound, ∀ ops', Reloaded c.kinds c.gids (after ops).started.length
          (after (ops ++ .call i :: ops')) ∨
        Rank.work step works (after (ops ++ [.call i])) ops' < bound ∧
          ∃ op, (after (ops ++ .call i :: ops')).works op = true) ∧
    (∀ ops op, (after (ops ++ [op])).started ≠ (after ops).started →
      ∀ st, (after ops).loop ≠ .reload st) ∧
    (∀ ops ops', (after ops).state = none →
      Run.Each step (fun d op => ¬Merges d op) (after ops) ops' →
      (after (ops ++ ops')).started = (after ops).started) ∧
    (∀ ops, (after ops).loop ≠ .panicked) ∧
    ∀ cfg st k gids t, Dirty.Contains st k gids → reloadAll cfg ⟨k, gids.toFinset⟩ t = true →
      reloadAll cfg st t = true ∨
        (∃ gid, t = .schedGroup gid) ∧ reloadAll cfg st .schedAll = true := by
  refine ⟨fun ops i c hc hcas => ?_, fun ops op hstarted st => ?_, fun ops ops' hnone hops => ?_,
    fun ops => (inv_after ops).alive, fun cfg st k gids t => reloadAll_covers cfg⟩
  · have hstep : (after ops).step (.call i) = (after ops).callStep i c := by simp [step, hc]
    refine ⟨((after ops).callStep i c).rank + 1, fun ops' => ?_⟩
    rw [after_append, after_append, foldl_cons, foldl_cons, hstep]
    exact reloaded_or_working (waiting_callStep (inv_after ops) hc hcas) ops'
  · rw [after_append] at hstarted
    rcases step_started (inv_after ops) op with heq | ⟨again, c, hloop, -⟩
    · exact absurd heq hstarted
    · simp [hloop]
  · rw [after_append]
    exact started_foldl (inv_after ops) hnone hops

def oneMark : List Op :=
  [.mark kindUsers [], .call 0]

theorem marks_reloaded_users :
    (after oneMark).calls[0]? = some ⟨kindUsers, [], .cas none⟩ ∧
      ∃ bound, ∀ ops', Reloaded kindUsers [] (after oneMark).started.length
          (after (oneMark ++ .call 0 :: ops')) ∨
        Rank.work step works (after (oneMark ++ [.call 0])) ops' < bound ∧
          ∃ op, (after (oneMark ++ .call 0 :: ops')).works op = true :=
  ⟨rfl, marks_reloaded.1 oneMark 0 ⟨kindUsers, [], .cas none⟩ rfl rfl⟩

end Debouncer
end C4Gateway.Invalidate
