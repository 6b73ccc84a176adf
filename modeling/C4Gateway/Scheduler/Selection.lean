import C4Gateway.Lib.Rank
import C4Gateway.Scheduler.Counters

/-! Concurrent selections on one group.  Every call scans one round of each sequence of its route,
by a cursor that all calls share, and takes a slot of the first candidate it may use.  The snapshot
does not change; a cursor advance, a counter load and a compare-and-swap are one step each. -/

namespace C4Gateway.Pick

open List Option
open Function (update update_self)

/-- An entry of a sequence.  `counter` is the cell its slots are counted in, which the entries of
one account or member share. -/
structure Item where
  id : Int
  counter : Nat
  enabled : Bool
  cooldownUntil : Option Int
  limit : SlotLimit

def accountItem (id : Int) (counter : Nat) (upstreamEnabled disabled : Bool)
    (cooldownUntil : Option Int) (maxConcurrency : Int) (env : GateEnv) : Item :=
  ⟨id, counter, upstreamEnabled && !disabled, cooldownUntil, .account maxConcurrency env⟩

def memberItem (id : Int) (counter : Nat) (memberEnabled upstreamEnabled : Bool)
    (cooldownUntil : Option Int) (maxConcurrency : Int) : Item :=
  ⟨id, counter, memberEnabled && upstreamEnabled, cooldownUntil, .upstream maxConcurrency⟩

/-- Whether a scan passes over the entry without a look at its counter. -/
def Item.skipped (excluded : List Int) (now : Int) (x : Item) : Bool :=
  excluded.contains x.id || !x.enabled || x.cooldownUntil.any (now ≤ ·)

/-- The number of slots a candidate has in all. -/
def Item.slots (x : Item) : Int :=
  match x.limit with
  | .account maxConcurrency _ => maxConcurrency
  | .upstream maxConcurrency => if maxConcurrency < 1 then 80 else maxConcurrency

/-- The limit is not shared with other instances. -/
def Item.SingleInstance (x : Item) : Prop :=
  match x.limit with
  | .account _ env => instancesN env.instances = 1
  | .upstream _ => True

theorem Item.admits_of_lt {x : Item} {cur : Int} (hx : x.SingleInstance) (hcur : cur < x.slots) :
    x.limit.admits cur = true := by
  obtain ⟨id, counter, enabled, cooldownUntil, limit⟩ := x
  cases limit with
  | upstream m => simpa [SlotLimit.admits, slots] using hcur
  | account m env =>
    have hone : instancesN env.instances = 1 := hx
    have hshare : cur < concShare m 1 := by
      simp only [slots] at hcur
      unfold concShare
      split <;> omega
    simp [SlotLimit.admits, hone, hshare]

/-- One or two sequences of accounts, or a sequence of upstreams with those it falls back to. -/
inductive Route where
  | accounts (tier1 tier2 : Option Nat)
  | upstreams (seq : Nat) (fallback : List Nat)
  deriving DecidableEq

/-- The sequences in the order in which a call scans them. -/
def Route.sequences : Route → List Nat
  | .accounts tier1 tier2 => tier1.toList ++ tier2.toList
  | .upstreams seq fallback => seq :: fallback

/-- `done none` is `ErrNoAvailable`. -/
inductive Phase where
  | advance
  | load (x : Item)
  | swap (x : Item) (cur : Int)
  | done (sel : Option Item)

/-- A call, with the sequences it has not finished; it has advanced the cursor of the first one
`advances` times. -/
structure Call where
  route : List Nat
  excluded : List Int
  now : Int
  advances : Nat := 0
  phase : Phase := .advance

/-- The sequences with their cursors, the counters of the instances, and the calls in flight. -/
structure Pool where
  seqs : Nat → List Item
  cursors : Nat → Nat := fun _ => 0
  counters : Nat → Int := fun _ => 0
  calls : List Call := []

/-- A call starts, makes its next step, or a slot is given back. -/
inductive Op where
  | select (route : Route) (excluded : List Int) (now : Int)
  | call (k : Nat)
  | release (counter : Nat)
  deriving DecidableEq

variable {p p' : Pool} {op : Op} {k q : Nat} {call : Call}

namespace Pool

def setCall (p : Pool) (k : Nat) (call : Call) : Pool :=
  { p with calls := p.calls.set k call }

/-- The entry that the next advance of the cursor comes to.  The source reads its 64-bit cursor as
an `int`, which is this number below `2 ^ 63` advances. -/
def next (p : Pool) (q : Nat) : Option Item :=
  (p.seqs q)[(p.cursors q + 1) % (p.seqs q).length]?

/-- The head of the loop over a sequence; a round ends after as many advances as it has entries. -/
def advance (p : Pool) (k : Nat) (call : Call) : Pool :=
  match call.route with
  | [] => p.setCall k { call with phase := .done none }
  | q :: rest =>
    match if call.advances < (p.seqs q).length then p.next q else none with
    | none => p.setCall k { call with route := rest, advances := 0 }
    | some x =>
      { p with cursors := update p.cursors q (p.cursors q + 1) }.setCall k
        { call with
          advances := call.advances + 1
          phase := if x.skipped call.excluded call.now then .advance else .load x }

/-- The counter is read; an entry that is full is given up. -/
def load (p : Pool) (k : Nat) (call : Call) (x : Item) : Pool :=
  let cur := p.counters x.counter
  p.setCall k { call with phase := if x.limit.admits cur then .swap x cur else .advance }

/-- A lost compare-and-swap gives the candidate up. -/
def swap (p : Pool) (k : Nat) (call : Call) (x : Item) (cur : Int) : Pool :=
  if p.counters x.counter = cur then
    { p with counters := update p.counters x.counter (cur + 1) }.setCall k
      { call with phase := .done (some x) }
  else p.setCall k { call with phase := .advance }

def callStep (p : Pool) (k : Nat) (call : Call) : Pool :=
  match call.phase with
  | .advance => p.advance k call
  | .load x => p.load k call x
  | .swap x cur => p.swap k call x cur
  | .done _ => p

/-- The pool after one atomic operation. -/
def step (p : Pool) : Op → Pool
  | .select route excluded now =>
    { p with calls := p.calls ++ [⟨route.sequences, excluded, now, 0, .advance⟩] }
  | .call k =>
    match p.calls[k]? with
    | none => p
    | some call => p.callStep k call
  | .release c =>
    if p.counters c ≤ 0 then p
    else { p with counters := update p.counters c (p.counters c - 1) }

variable {x : Item}

@[simp]
theorem seqs_step (p : Pool) (op : Op) : (p.step op).seqs = p.seqs := by
  cases op with
  | select => rfl
  | release c =>
    simp only [step]
    split <;> rfl
  | call k =>
    simp only [step, callStep, advance, swap]
    repeat' split
    all_goals rfl

theorem calls_step_of_ne (hcall : p.calls[k]? = some call) (hop : op ≠ .call k) :
    (p.step op).calls[k]? = some call := by
  cases op with
  | select =>
    have hk : k < p.calls.length := (List.getElem?_eq_some_iff.mp hcall).1
    simpa [step, List.getElem?_append_left hk] using hcall
  | release c =>
    simp only [step]
    split <;> exact hcall
  | call j =>
    have hj : j ≠ k := fun h => hop (h ▸ rfl)
    simp only [step, callStep, advance, load, swap, setCall]
    repeat' split
    all_goals simpa [getElem?_set_ne hj] using hcall

theorem step_call (hcall : p.calls[k]? = some call) : p.step (.call k) = p.callStep k call := by
  simp [step, hcall]

theorem calls_setCall (hk : k < p.calls.length) : (p.setCall k call).calls[k]? = some call :=
  getElem?_set_self hk

end Pool

/-- The sequence in the middle of whose round a call is. -/
def Call.scanning (p : Pool) (call : Call) : Option Nat :=
  match call.phase with
  | .done _ => none
  | _ => call.route.head?.filter fun q => 0 < call.advances ∧ call.advances < (p.seqs q).length

/-- The entry whose counter the call is about to swap. -/
def Call.swapping (call : Call) : Option Item :=
  match call.phase with
  | .swap x _ => some x
  | _ => none

/-- No step of another call or request moves the cursor in the middle of the call's round, or
changes a counter between the call's load of it and its compare-and-swap. -/
def Undisturbed (k : Nat) (p : Pool) (op : Op) : Prop :=
  op = .call k ∨ ∀ call ∈ p.calls[k]?,
    (∀ q ∈ call.scanning p, (p.step op).cursors q = p.cursors q) ∧
    ∀ x ∈ call.swapping, (p.step op).counters x.counter = p.counters x.counter

instance Undisturbed.decidable (k : Nat) (p : Pool) (op : Op) : Decidable (Undisturbed k p op) :=
  inferInstanceAs (Decidable (_ ∨ ∀ call ∈ p.calls[k]?,
    (∀ q ∈ call.scanning p, (p.step op).cursors q = p.cursors q) ∧
    ∀ x ∈ call.swapping, (p.step op).counters x.counter = p.counters x.counter))

/-- The steps that one round over each sequence takes at most. -/
def rounds (seqs : Nat → List Item) : List Nat → Nat
  | [] => 0
  | q :: rest => 3 * (seqs q).length + 1 + rounds seqs rest

/-- The steps that a call before its next advance can still make. -/
def remaining (p : Pool) (call : Call) : Nat :=
  match call.route with
  | [] => 1
  | q :: rest => 3 * ((p.seqs q).length - call.advances) + 1 + (rounds p.seqs rest + 1)

/-- The steps that a call can still make; it falls with every step of its own. -/
def Call.rank (p : Pool) (call : Call) : Nat :=
  match call.phase with
  | .advance => remaining p call
  | .load _ => remaining p call + 2
  | .swap _ _ => remaining p call + 1
  | .done _ => 0

/-- The candidate is in a sequence that the call has not come to, or among the entries that the rest
of its round over the current one goes through. -/
def Ahead (p : Pool) (x : Item) (call : Call) : Prop :=
  (∃ q ∈ call.route.tail, x ∈ p.seqs q) ∨
    ∃ q ∈ call.route.head?, ∃ j < (p.seqs q).length - call.advances,
      (p.seqs q)[(p.cursors q + 1 + j) % (p.seqs q).length]? = some x

/-- The candidate may still be selected by the call: it is at hand, with the counter as it was
read, or ahead. -/
def OnWay (p : Pool) (x : Item) (call : Call) : Prop :=
  match call.phase with
  | .advance => Ahead p x call
  | .load y => y = x ∨ Ahead p x call
  | .swap y cur => y = x ∧ p.counters x.counter = cur ∨ Ahead p x call
  | .done _ => False

/-- Call `k` is on its way to a candidate that it does not skip. -/
def Hunts (k : Nat) (x : Item) (p : Pool) : Prop :=
  ∃ call, p.calls[k]? = some call ∧ x.skipped call.excluded call.now = false ∧ OnWay p x call

/-- Call `k` has ended with a selection. -/
def Selected (k : Nat) (p : Pool) : Prop :=
  ∃ call y, p.calls[k]? = some call ∧ call.phase = .done (some y)

/-- Wherever the cursor is, one round goes through every entry. -/
theorem exists_round {α : Type} {l : List α} {a : α} (h : a ∈ l) (cursor : Nat) :
    ∃ j < l.length, l[(cursor + 1 + j) % l.length]? = some a := by
  obtain ⟨i, hi, rfl⟩ := mem_iff_getElem.mp h
  have hmod : (cursor + 1) % l.length < l.length := Nat.mod_lt _ (by omega)
  have hround : ∀ j,
      (cursor + 1) % l.length + j = i ∨ (cursor + 1) % l.length + j = i + l.length →
      l[(cursor + 1 + j) % l.length]? = some l[i] := by
    intro j hj
    have hindex : (cursor + 1 + j) % l.length = i := by
      rw [← Nat.mod_add_mod]
      rcases hj with hj | hj
      · rw [hj, Nat.mod_eq_of_lt hi]
      · rw [hj, Nat.add_mod_right, Nat.mod_eq_of_lt hi]
    rw [hindex, getElem?_eq_getElem hi]
  by_cases hle : (cursor + 1) % l.length ≤ i
  · exact ⟨i - (cursor + 1) % l.length, by omega, hround _ (by omega)⟩
  · exact ⟨i + l.length - (cursor + 1) % l.length, by omega, hround _ (by omega)⟩

section
variable {x y : Item} {rest : List Nat}

theorem ahead_of_mem (hq : q ∈ call.route) (hx : x ∈ p.seqs q) (hadv : call.advances = 0) :
    Ahead p x call := by
  cases hroute : call.route with
  | nil => simp [hroute] at hq
  | cons q' rest =>
    rw [hroute, mem_cons] at hq
    rcases hq with rfl | hq
    · right
      obtain ⟨j, hj, hget⟩ := exists_round hx (p.cursors q)
      exact ⟨q, by simp [hroute], j, by omega, hget⟩
    · left
      exact ⟨q, by simpa [hroute] using hq, hx⟩

theorem Ahead.frame (h : Ahead p x call) (hseqs : p'.seqs = p.seqs)
    (hphase : ∀ r, call.phase ≠ .done r)
    (hcur : ∀ q ∈ call.scanning p, p'.cursors q = p.cursors q) : Ahead p' x call := by
  rcases h with ⟨q, hq, hx⟩ | ⟨q, hq, j, hj, hx⟩
  · exact .inl ⟨q, hq, hseqs ▸ hx⟩
  by_cases hadv : call.advances = 0
  · -- The round has not begun, so it goes through every entry from wherever the cursor is now.
    refine ahead_of_mem (mem_of_mem_head? hq) ?_ hadv
    rw [hseqs]
    exact mem_of_getElem? hx
  · have hscan : q ∈ call.scanning p := by
      unfold Call.scanning
      split
      · exact absurd ‹_› (hphase _)
      · rw [mem_def, filter_eq_some_iff]
        exact ⟨hq, by simp; omega⟩
    refine .inr ⟨q, hq, j, ?_, ?_⟩
    · rwa [hseqs]
    · rwa [hseqs, hcur q hscan]

theorem next_of_lt (h : call.advances < (p.seqs q).length) : ∃ y, p.next q = some y :=
  ⟨_, getElem?_eq_getElem (Nat.mod_lt _ (by omega))⟩

/-- What an unfinished round does: it comes to the next entry. -/
theorem advance_eq (hroute : call.route = q :: rest) (h : call.advances < (p.seqs q).length)
    (hy : p.next q = some y) :
    p.advance k call =
      { p with cursors := update p.cursors q (p.cursors q + 1) }.setCall k
        { call with
          advances := call.advances + 1
          phase := if y.skipped call.excluded call.now then .advance else .load y } := by
  simp [Pool.advance, hroute, if_pos h, hy]

theorem advance_eq_next (hroute : call.route = q :: rest) (h : ¬call.advances < (p.seqs q).length) :
    p.advance k call = p.setCall k { call with route := rest, advances := 0 } := by
  simp [Pool.advance, hroute, if_neg h]

/-- Either the entry that the cursor comes to is the candidate, or the candidate is ahead of it. -/
theorem Ahead.next {call' : Call} (h : Ahead p x call) (hroute : call.route = q :: rest)
    (hy : p.next q = some y) (hseqs : p'.seqs = p.seqs) (hcur : p'.cursors q = p.cursors q + 1)
    (hroute' : call'.route = call.route) (hadv : call'.advances = call.advances + 1) :
    y = x ∨ Ahead p' x call' := by
  rcases h with ⟨q', hq', hmem⟩ | ⟨q', hq', j, hj, hget⟩
  · exact .inr (.inl ⟨q', hroute' ▸ hq', hseqs ▸ hmem⟩)
  rw [hroute, head?_cons, mem_some_iff] at hq'
  subst hq'
  cases j with
  | zero => exact .inl (Option.some.inj (hy.symm.trans hget))
  | succ j =>
    refine .inr (.inr ⟨q, by simp [hroute', hroute], j, ?_, ?_⟩)
    · rw [hseqs]
      omega
    · rw [hseqs, ← hget]
      congr 2
      omega

theorem Hunts.advance (hk : k < p.calls.length) (hx : x.skipped call.excluded call.now = false)
    (hphase : call.phase = .advance) (h : Ahead p x call) :
    ∃ call', (p.advance k call).calls[k]? = some call' ∧
      x.skipped call'.excluded call'.now = false ∧ OnWay (p.advance k call) x call' ∧
      call'.rank (p.advance k call) < call.rank p := by
  cases hroute : call.route with
  | nil => simp [Ahead, hroute] at h
  | cons q rest =>
    by_cases hlt : call.advances < (p.seqs q).length
    · obtain ⟨y, hnext⟩ := next_of_lt hlt
      rw [advance_eq hroute hlt hnext]
      refine ⟨_, Pool.calls_setCall hk, hx, ?_, ?_⟩
      · by_cases hskip : y.skipped call.excluded call.now = true
        · have hne : y ≠ x := by
            rintro rfl
            exact absurd hskip (by simp [hx])
          simp only [if_pos hskip]
          refine Or.resolve_left ?_ hne
          exact h.next hroute hnext rfl (update_self ..) rfl rfl
        · simp only [if_neg hskip]
          exact h.next hroute hnext rfl (update_self ..) rfl rfl
      · simp only [Call.rank, hphase, remaining, hroute, Pool.setCall]
        split
        all_goals omega
    · rw [advance_eq_next hroute hlt]
      refine ⟨_, Pool.calls_setCall hk, hx, ?_, ?_⟩
      · simp only [hphase]
        rcases h with ⟨q', hq', hmem⟩ | ⟨q', hq', j, hj, -⟩
        · rw [hroute] at hq'
          exact ahead_of_mem hq' hmem rfl
        · rw [hroute, head?_cons, mem_some_iff] at hq'
          subst hq'
          omega
      · simp only [Call.rank, hphase, remaining, hroute, Pool.setCall]
        cases rest <;> simp only [rounds] <;> omega

/-- A step of the call itself selects, or comes nearer to the candidate. -/
theorem OnWay.step (hcall : p.calls[k]? = some call) (hx : x.skipped call.excluded call.now = false)
    (hsingle : x.SingleInstance) (hfree : p.counters x.counter < x.slots) (h : OnWay p x call) :
    Selected k (p.step (.call k)) ∨ ∃ call', (p.step (.call k)).calls[k]? = some call' ∧
      x.skipped call'.excluded call'.now = false ∧ OnWay (p.step (.call k)) x call' ∧
      call'.rank (p.step (.call k)) < call.rank p := by
  have hk : k < p.calls.length := (List.getElem?_eq_some_iff.mp hcall).1
  rw [Pool.step_call hcall]
  cases hphase : call.phase with
  | advance =>
    simp only [OnWay, hphase] at h
    simp only [Pool.callStep, hphase]
    exact .inr (Hunts.advance hk hx hphase h)
  | load y =>
    simp only [OnWay, hphase] at h
    simp only [Pool.callStep, hphase, Pool.load]
    by_cases hadmits : y.limit.admits (p.counters y.counter) = true
    · rw [if_pos hadmits]
      refine .inr ⟨_, Pool.calls_setCall hk, hx, ?_, ?_⟩
      · exact h.imp_left fun hy => ⟨hy, by rw [hy]; rfl⟩
      · simp [Call.rank, hphase, remaining, Pool.setCall]
    · have hne : y ≠ x := by
        rintro rfl
        exact hadmits (Item.admits_of_lt hsingle hfree)
      rw [if_neg hadmits]
      refine .inr ⟨_, Pool.calls_setCall hk, hx, h.resolve_left hne, ?_⟩
      simp [Call.rank, hphase, remaining, Pool.setCall]
  | swap y cur =>
    simp only [OnWay, hphase] at h
    simp only [Pool.callStep, hphase, Pool.swap]
    split
    · exact .inl ⟨_, y, Pool.calls_setCall hk, rfl⟩
    · refine .inr ⟨_, Pool.calls_setCall hk, hx, ?_, ?_⟩
      · refine h.resolve_left ?_
        rintro ⟨rfl, hcur⟩
        exact absurd hcur ‹_›
      · simp [Call.rank, hphase, remaining, Pool.setCall]
  | done r => simp [OnWay, hphase] at h

/-- A step of another call leaves the way to the candidate open if it does not disturb the call. -/
theorem OnWay.frame (hcall : p.calls[k]? = some call) (hop : op ≠ .call k)
    (hcalm : Undisturbed k p op) (h : OnWay p x call) : OnWay (p.step op) x call := by
  have hboth := (hcalm.resolve_left hop) call hcall
  have hframe : (∀ r, call.phase ≠ .done r) → Ahead p x call → Ahead (p.step op) x call :=
    fun hphase hahead => hahead.frame (p.seqs_step op) hphase hboth.1
  cases hphase : call.phase with
  | advance =>
    simp only [OnWay, hphase] at h ⊢
    exact hframe (by simp [hphase]) h
  | load y =>
    simp only [OnWay, hphase] at h ⊢
    exact h.imp_right (hframe (by simp [hphase]))
  | swap y cur =>
    simp only [OnWay, hphase] at h ⊢
    refine h.imp ?_ (hframe (by simp [hphase]))
    rintro ⟨rfl, hcur⟩
    exact ⟨rfl, (hboth.2 y (by simp [Call.swapping, hphase])).trans hcur⟩
  | done r => simp [OnWay, hphase] at h

theorem Selected.step (h : Selected k p) (op : Op) : Selected k (p.step op) := by
  obtain ⟨call, y, hcall, hphase⟩ := h
  by_cases hop : op = .call k
  · subst hop
    rw [Pool.step_call hcall]
    exact ⟨call, y, by simp [Pool.callStep, hphase, hcall], hphase⟩
  · exact ⟨call, y, Pool.calls_step_of_ne hcall hop, hphase⟩

theorem rank_pos (h : OnWay p x call) : 0 < call.rank p := by
  cases hphase : call.phase with
  | done r => simp [OnWay, hphase] at h
  | advance =>
    simp only [Call.rank, hphase, remaining]
    split <;> omega
  | load y | swap y cur => simp [Call.rank, hphase]

theorem Call.rank_congr (hseqs : p'.seqs = p.seqs) : call.rank p' = call.rank p := by
  simp [Call.rank, remaining, hseqs]

def own (k : Nat) (_ : Pool) (op : Op) : Bool := op = .call k

def rankOf (k : Nat) (p : Pool) : Nat := (p.calls[k]?).elim 0 (Call.rank p)

theorem Hunts.step (hsingle : x.SingleInstance) (h : Hunts k x p)
    (hop : Undisturbed k p op ∧ p.counters x.counter < x.slots) :
    Selected k (p.step op) ∨ Hunts k x (p.step op) ∧
      rankOf k (p.step op) + (if own k p op then 1 else 0) ≤ rankOf k p := by
  obtain ⟨call, hcall, hx, hway⟩ := h
  by_cases hown : op = .call k
  · subst hown
    refine (OnWay.step hcall hx hsingle hop.2 hway).imp_right ?_
    rintro ⟨call', hcall', hx', hway', hrank⟩
    refine ⟨⟨call', hcall', hx', hway'⟩, ?_⟩
    simp only [rankOf, hcall, hcall', own, elim_some, decide_true, if_true]
    omega
  · have hcall' := Pool.calls_step_of_ne hcall hown
    refine .inr ⟨⟨call, hcall', hx, hway.frame hcall hown hop.1⟩, ?_⟩
    simp [rankOf, hcall, hcall', own, hown, Call.rank_congr (p.seqs_step op)]

theorem Hunts.run {ops : List Op} (hsingle : x.SingleInstance) (h : Hunts k x p)
    (hfree : ∀ t ∈ Run.states Pool.step p ops, t.counters x.counter < x.slots)
    (hcalm : Run.Each Pool.step (Undisturbed k) p ops) :
    Selected k (ops.foldl Pool.step p) ∨ Hunts k x (ops.foldl Pool.step p) ∧
      rankOf k (ops.foldl Pool.step p) + Rank.work Pool.step (own k) p ops ≤ rankOf k p :=
  Rank.reached_or_le (fun _ op h => h.step op) (fun _ _ h hop => h.step hsingle hop) h
    (hcalm.and (Run.each_of_states hfree))

end

section
variable {p : Pool} {route : Route} {excluded : List Int} {now : Int} {q : Nat} {x : Item}
  {ops : List Op}

/-- A call that no other one disturbs selects, as long as a candidate of its route is free: it does
not end without a selection, and ends after one round over each sequence. -/
theorem selects_while_free (hq : q ∈ route.sequences) (hx : x ∈ p.seqs q)
    (husable : x.skipped excluded now = false) (hsingle : x.SingleInstance)
    (hfree : ∀ t ∈ Run.states Pool.step (p.step (.select route excluded now)) ops,
      t.counters x.counter < x.slots ∧ ∀ q ∈ route.sequences, t.cursors q + 1 < 2 ^ 63)
    (hcalm : Run.Each Pool.step (Undisturbed p.calls.length)
      (p.step (.select route excluded now)) ops) :
    Selected p.calls.length (ops.foldl Pool.step (p.step (.select route excluded now))) ∨
      (∃ call, (ops.foldl Pool.step (p.step (.select route excluded now))).calls[p.calls.length]? =
        some call ∧ ∀ r, call.phase ≠ .done r) ∧
      Rank.work Pool.step (own p.calls.length) (p.step (.select route excluded now)) ops ≤
        rounds p.seqs route.sequences := by
  have hcall : (p.step (.select route excluded now)).calls[p.calls.length]? =
      some ⟨route.sequences, excluded, now, 0, .advance⟩ := by
    simp [Pool.step]
  have hstart : Hunts p.calls.length x (p.step (.select route excluded now)) :=
    ⟨_, hcall, husable, ahead_of_mem hq hx rfl⟩
  have hrank : rankOf p.calls.length (p.step (.select route excluded now)) ≤
      rounds p.seqs route.sequences + 1 := by
    simp only [rankOf, hcall, elim_some, Call.rank, remaining, Pool.seqs_step]
    split <;> simp only [*, rounds] <;> omega
  refine (hstart.run hsingle (fun t ht => (hfree t ht).1) hcalm).imp_right ?_
  rintro ⟨⟨call, hcall', -, hway⟩, hwork⟩
  have hpos : 0 < rankOf p.calls.length
      (ops.foldl Pool.step (p.step (.select route excluded now))) := by
    rw [rankOf, hcall']
    exact rank_pos hway
  refine ⟨⟨call, hcall', fun r hr => ?_⟩, by omega⟩
  simp [OnWay, hr] at hway

end

/-- The call has ended without a selection. -/
def Phase.refused : Phase → Bool
  | .done none => true
  | _ => false

def lone : GateEnv := { instances := some 1 }

def freeAccount : Item := accountItem 2 1 true false none 3 lone

/-- The account of cell 0 is full, the one of cell 1 has slots. -/
def accounts : Pool where
  seqs _ := [freeAccount, accountItem 1 0 true false none 1 lone]
  counters := update (fun _ => 0) 0 1

def freeMember : Item := memberItem 3 0 true true none 3

def members : Pool where
  seqs _ := [freeMember]

/-- The second call advances before the round of the first one, and loads a counter during it. -/
theorem selects_while_free_accounts :
    Selected 0 ([.select (.accounts (some 0) none) [] 0, .call 1, .call 0, .call 1, .call 0,
      .call 0, .call 0, .call 0, .call 0, .call 0, .call 0].foldl Pool.step
      (accounts.step (.select (.accounts (some 0) none) [] 0))) :=
  (@selects_while_free accounts (.accounts (some 0) none) [] 0 0 freeAccount
    [.select (.accounts (some 0) none) [] 0, .call 1, .call 0, .call 1, .call 0, .call 0,
      .call 0, .call 0, .call 0, .call 0, .call 0]
    (mem_singleton.mpr rfl) mem_cons_self rfl rfl (by decide) (by decide)).resolve_right
    fun h => absurd h.2 (by decide)

/-- The advance of the second call takes the free account out of the round of the first one, which
comes to the full account twice.  And a lost compare-and-swap gives up the only member. -/
theorem contention_refuses :
    (∀ t ∈ Run.states Pool.step accounts
        [.select (.accounts (some 0) none) [] 0, .select (.accounts (some 0) none) [] 0, .call 0,
          .call 0, .call 1, .call 0, .call 0, .call 0, .call 0],
      t.counters 1 < freeAccount.slots) ∧
    ([.select (.accounts (some 0) none) [] 0, .select (.accounts (some 0) none) [] 0, .call 0,
      .call 0, .call 1, .call 0, .call 0, .call 0, .call 0].foldl Pool.step accounts).calls.map
      (·.phase.refused) = [true, false] ∧
    (∀ t ∈ Run.states Pool.step members
        [.select (.upstreams 0 []) [] 0, .select (.upstreams 0 []) [] 0, .call 0, .call 0, .call 1,
          .call 1, .call 1, .call 0, .call 0, .call 0],
      t.counters 0 < freeMember.slots) ∧
    ([.select (.upstreams 0 []) [] 0, .select (.upstreams 0 []) [] 0, .call 0, .call 0, .call 1,
      .call 1, .call 1, .call 0, .call 0, .call 0].foldl Pool.step members).calls.map
      (·.phase.refused) = [true, false] := by
  decide

theorem Item.lt_of_admits {x : Item} {cur : Int} (h : x.limit.admits cur = true) :
    cur < max 1 x.slots := by
  obtain ⟨id, counter, enabled, cooldownUntil, limit⟩ := x
  cases limit with
  | upstream m => exact lt_max_of_lt_right (of_decide_eq_true h)
  | account m env =>
    have hshare : concShare m (instancesN env.instances) ≤ max 1 m := by
      have hself : 0 ≤ m → m / instancesN env.instances ≤ m := Int.ediv_le_self _
      have hneg : m < 0 → _ := (Int.ediv_neg_of_neg_of_pos · (instancesN_pos env.instances))
      unfold concShare
      omega
    simp only [SlotLimit.admits, Bool.or_eq_true, Bool.and_eq_true, decide_eq_true_eq] at h
    exact h.elim (·.trans_le hshare) fun h => lt_max_of_lt_right h.1

/-- The slot a call is about to take leaves its counter within the bound. -/
def Phase.Within (bound : Nat → Int) : Phase → Prop
  | .load x => max 1 x.slots ≤ bound x.counter
  | .swap x cur => cur < bound x.counter
  | _ => True

/-- No counter is above its bound, and no call is about to take it there. -/
structure Bounded (bound : Nat → Int) (p : Pool) : Prop where
  items : ∀ q, ∀ x ∈ p.seqs q, max 1 x.slots ≤ bound x.counter
  calls : ∀ call ∈ p.calls, call.phase.Within bound
  counters : ∀ c, p.counters c ≤ bound c

variable {bound : Nat → Int}

theorem Bounded.setCall (h : Bounded bound p) (hcall : call.phase.Within bound) :
    Bounded bound (p.setCall k call) :=
  { h with calls := fun c hc => (mem_or_eq_of_mem_set hc).elim (h.calls c) (· ▸ hcall) }

theorem Bounded.count {c : Nat} {v : Int} (h : Bounded bound p) (hv : v ≤ bound c) :
    Bounded bound { p with counters := update p.counters c v } := by
  refine { h with counters := fun c' => ?_ }
  by_cases hc : c' = c
  · simpa [hc] using hv
  · simpa [hc] using h.counters c'

theorem Bounded.callStep (h : Bounded bound p) (hcall : call.phase.Within bound) :
    Bounded bound (p.callStep k call) := by
  unfold Pool.callStep
  cases hphase : call.phase with rw [hphase] at hcall
  | advance =>
    simp only [Pool.advance]
    split
    · exact h.setCall trivial
    split
    · exact h.setCall (hphase ▸ hcall)
    next hx =>
      refine Bounded.setCall { h with } ?_
      split
      · trivial
      · exact h.items _ _ (mem_of_getElem? (ite_none_right_eq_some.mp hx).2)
  | load x =>
    refine h.setCall ?_
    split
    next hadmits => exact (Item.lt_of_admits hadmits).trans_le hcall
    · trivial
  | swap x cur =>
    simp only [Pool.swap]
    split
    · exact (h.count hcall).setCall trivial
    · exact h.setCall trivial
  | done r => exact h

theorem Bounded.step (h : Bounded bound p) (op : Op) : Bounded bound (p.step op) := by
  cases op with
  | select => exact { h with calls := forall_mem_append.mpr ⟨h.calls, by simp [Phase.Within]⟩ }
  | release c =>
    have hc := h.counters c
    simp only [Pool.step]
    split
    · exact h
    · exact h.count (by omega)
  | call k =>
    simp only [Pool.step]
    split
    · exact h
    next hcall => exact h.callStep (h.calls _ (mem_of_getElem? hcall))

/-- However selections and releases interleave, no counter rises above the slots of the entries
counted there.  An account has one slot at least. -/
theorem counters_within_slots (hitems : ∀ q, ∀ x ∈ p.seqs q, max 1 x.slots ≤ bound x.counter)
    (hcounters : ∀ c, p.counters c ≤ bound c) (hcalls : p.calls = []) (ops : List Op) :
    ∀ t ∈ Run.states Pool.step p ops, ∀ c, t.counters c ≤ bound c := by
  have hstart : Bounded bound p := ⟨hitems, by simp [hcalls], hcounters⟩
  exact fun t ht => (Run.states_inv _ (fun _ op h => h.step op) hstart t ht).counters

theorem counters_within_slots_members :
    ([.select (.upstreams 0 []) [] 0, .call 0, .call 0, .call 0].foldl Pool.step
      members).counters 0 ≤ 3 := by
  refine @counters_within_slots members (fun _ => 3) (fun q x hx => ?_) (fun _ => ?_) rfl _ _
    Run.foldl_mem_states 0
  · obtain rfl := mem_singleton.mp hx
    decide
  · simp [members]

end C4Gateway.Pick
