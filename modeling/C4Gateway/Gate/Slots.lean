import C4Gateway.Gate.Quota

/-! The concurrency slots of the gate, at the granularity of its atomic operations.  A request takes
its steps on the snapshot it has loaded; a reload copies the counters one by one into a snapshot of
its own and publishes that at the end.  `Auth.mu` keeps reloads and upserts apart from each other,
and nothing keeps them apart from the requests. -/

namespace C4Gateway

open List
open Function (update update_of_ne update_self)

/-- What a counter counts for. -/
inductive Slot where
  | user (id : Int)
  | key (id : Int)
  deriving DecidableEq, Repr

/-- The counter cells of a snapshot; a cell is identified by its slot and a number. -/
abbrev GateSnapshot := List (Slot × Nat)

def incCounter (cur : Int) : Int :=
  let cur := if cur < 0 then 0 else cur
  if cur ≥ maxInt64 then cur else cur + 1

def decNonNegative (cur : Int) : Int := if cur ≤ 0 then cur else cur - 1

def concShare (limit n : Int) : Int := if limit / n > 0 then limit / n else 1

/-- The requests of all instances when it was built, and those of this one in it. -/
structure ConcSnap where
  total : Int
  selfLast : Int
  builtAt : Int

def concViewStale : Int := 4 * 1000000000 -- nanoseconds

/-- Whether a request above the share is admitted; without a fresh view the whole limit is local. -/
def concAllows (view : Option ConcSnap) (now limit lnow : Int) : Bool :=
  match view with
  | none => lnow ≤ limit
  | some snap =>
    if now - snap.builtAt ≥ concViewStale then lnow ≤ limit
    else snap.total - snap.selfLast + lnow < limit

/-- What a step reads besides the gate. -/
structure GateEnv where
  instances : Option Int := none
  view : Option ConcSnap := none
  now : Int := 0

/-- Where a request is, named by its next step.  `c` is the cell that `acquire` has at hand, and the
flags are the bits of the level. -/
inductive Phase where
  | idle
  | countUser (snap : GateSnapshot)
  | checkShare (snap : GateSnapshot) (c : Nat)
  | checkView (snap : GateSnapshot) (c : Nat)
  | rollBack (c : Nat)
  | countKey (snap : GateSnapshot) (user : Bool)
  | checkKeyView (snap : GateSnapshot) (user : Bool) (c : Nat)
  | borrowKey (snap : GateSnapshot) (user : Bool) (c : Nat)
  | rollBackUser (snap : GateSnapshot) (user : Bool)
  | refused
  | admitted (user key : Bool)
  | releaseUser (snap : GateSnapshot) (user key : Bool)
  | releaseKey (snap : GateSnapshot) (key : Bool)
  | released
  deriving DecidableEq

/-- What a step does to a counter. -/
inductive Touch where
  | nothing
  | inc (slot : Slot) (c : Nat)
  | dec (slot : Slot) (c : Nat)
  deriving DecidableEq

def giveBack (snap : GateSnapshot) (slot : Slot) (held : Bool) : Touch :=
  if held then
    match snap.lookup slot with
    | some c => .dec slot c
    | none => .nothing
  else .nothing

/-- A request with its key and the step it is at. -/
structure Request where
  key : KeyMeta
  phase : Phase := .idle

/-- The counters by cell, the published snapshot and one being built, and the requests in flight. -/
structure SlotGate where
  counters : Slot → Nat → Int := fun _ _ => 0
  next : Nat := 0
  store : GateSnapshot := []
  building : Option GateSnapshot := none
  reqs : List Request := []

namespace SlotGate

/-- The next step of a request, through `acquire` and then `release`. -/
def advance (w : SlotGate) (env : GateEnv) (m : KeyMeta) : Phase → Phase × Touch
  | .idle => (.countUser w.store, .nothing)
  | .countUser snap =>
    match snap.lookup (.user m.userID) with
    | some c => (.checkShare snap c, .inc (.user m.userID) c)
    | none => (.countKey snap false, .nothing)
  | .checkShare snap c =>
    if m.userMaxConc > 0 ∧
        w.counters (.user m.userID) c > concShare m.userMaxConc (instancesN env.instances) then
      (.checkView snap c, .nothing)
    else (.countKey snap true, .nothing)
  | .checkView snap c =>
    if concAllows env.view env.now m.userMaxConc (w.counters (.user m.userID) c) then
      (.countKey snap true, .nothing)
    else (.rollBack c, .nothing)
  | .rollBack c => (.refused, .dec (.user m.userID) c)
  | .countKey snap user =>
    if m.keyMaxConc > 0 then
      match snap.lookup (.key m.keyID) with
      | some c =>
        if w.counters (.key m.keyID) c ≥ concShare m.keyMaxConc (instancesN env.instances) then
          (.checkKeyView snap user c, .nothing)
        else (.admitted user true, .inc (.key m.keyID) c)
      | none => (.admitted user false, .nothing)
    else (.admitted user false, .nothing)
  | .checkKeyView snap user c =>
    if concAllows env.view env.now m.keyMaxConc
        (saturatingQuotaAdd (w.counters (.key m.keyID) c) 1) then
      (.borrowKey snap user c, .nothing)
    else (.rollBackUser snap user, .nothing)
  | .borrowKey snap user c =>
    if w.counters (.key m.keyID) c ≥ m.keyMaxConc then (.rollBackUser snap user, .nothing)
    else (.admitted user true, .inc (.key m.keyID) c)
  | .rollBackUser snap user => (.refused, giveBack snap (.user m.userID) user)
  | .refused => (.refused, .nothing)
  | .admitted user key =>
    if user || key then (.releaseUser w.store user key, .nothing) else (.released, .nothing)
  | .releaseUser snap user key =>
    (.releaseKey snap key, giveBack snap (.user m.userID) user)
  | .releaseKey snap key => (.released, giveBack snap (.key m.keyID) key)
  | .released => (.released, .nothing)

def setCounter (w : SlotGate) (slot : Slot) (c : Nat) (v : Int) : SlotGate :=
  { w with counters := update w.counters slot (update (w.counters slot) c v) }

/-- The user counter saturates; the limit bounds the key counter. -/
def touch (w : SlotGate) : Touch → SlotGate
  | .nothing => w
  | .inc (.user id) c => w.setCounter (.user id) c (incCounter (w.counters (.user id) c))
  | .inc (.key id) c => w.setCounter (.key id) c (w.counters (.key id) c + 1)
  | .dec slot c => w.setCounter slot c (decNonNegative (w.counters slot c))

def alloc (w : SlotGate) (snap : GateSnapshot) (slot : Slot) (v : Int) :
    SlotGate × GateSnapshot :=
  ({ w.setCounter slot w.next v with next := w.next + 1 }, (slot, w.next) :: snap)

end SlotGate

/-- One atomic step of the gate or of one of its requests. -/
inductive SlotOp where
  | request (i : Nat) (env : GateEnv)
  | reload
  | copy (slot : Slot)
  | publish
  | upsert (slot : Slot)

namespace SlotGate

/-- A request makes its next step, or a reload builds and publishes a snapshot. -/
def step (w : SlotGate) : SlotOp → SlotGate
  | .request i env =>
    match w.reqs[i]? with
    | none => w
    | some r =>
      let (phase, t) := w.advance env r.key r.phase
      { w.touch t with reqs := w.reqs.set i { r with phase } }
  | .reload => if w.building.isNone then { w with building := some [] } else w
  | .copy slot =>
    -- The counter is read from the published snapshot, and is 0 if that has none.
    match w.building with
    | none => w
    | some snap =>
      if (snap.lookup slot).isSome then w
      else
        let (w', snap') :=
          w.alloc snap slot (((w.store.lookup slot).map (w.counters slot)).getD 0)
        { w' with building := some snap' }
  | .publish =>
    match w.building with
    | none => w
    | some snap => { w with store := snap, building := none }
  | .upsert slot =>
    if w.building.isSome || (w.store.lookup slot).isSome then w
    else
      let (w', snap) := w.alloc w.store slot 0
      { w' with store := snap }

def staysPresent (w : SlotGate) : SlotOp → Bool
  | .publish =>
    match w.building with
    | none => true
    | some snap => w.store.all fun e => (snap.lookup e.1).isSome
  | _ => true

/-- A counter that is decremented is the published one, and no reload has copied it yet. -/
def decrementsCurrent (w : SlotGate) : SlotOp → Bool
  | .request i env =>
    match w.reqs[i]? with
    | none => true
    | some r =>
      match (w.advance env r.key r.phase).2 with
      | .dec slot c =>
        w.store.lookup slot = some c && (w.building.bind (·.lookup slot)).isNone
      | _ => true
  | _ => true

def start (keys : List KeyMeta) : SlotGate := { reqs := keys.map fun key => { key } }

end SlotGate

def Request.settled (r : Request) : Bool :=
  r.phase = .idle || r.phase = .refused || r.phase = .released

def Phase.level : Phase → Bool × Bool
  | .checkShare .. | .checkView .. | .rollBack _ => (true, false)
  | .countKey _ user | .checkKeyView _ user _ | .borrowKey _ user _ | .rollBackUser _ user =>
    (user, false)
  | .admitted user key | .releaseUser _ user key => (user, key)
  | .releaseKey _ key => (false, key)
  | .idle | .countUser _ | .refused | .released => (false, false)

def Phase.snapshot : Phase → Option GateSnapshot
  | .countUser snap | .checkShare snap _ | .checkView snap _ | .countKey snap _
  | .checkKeyView snap _ _ | .borrowKey snap _ _ | .rollBackUser snap _
  | .releaseUser snap _ _ | .releaseKey snap _ => some snap
  | .idle | .rollBack _ | .refused | .admitted .. | .released => none

def Phase.keyFound : Phase → Bool
  | .checkKeyView .. | .borrowKey .. => true
  | _ => false

variable {store : GateSnapshot} {r r' : Request}

namespace Request

def holds (r : Request) : Slot → Bool
  | .user id => r.phase.level.1 && id = r.key.userID
  | .key id => r.phase.level.2 && id = r.key.keyID

theorem holds_congr (hkey : r'.key = r.key)
    (hlevel : r'.phase.level = r.phase.level) : r'.holds = r.holds := by
  funext s
  cases s <;> simp [holds, hkey, hlevel]

theorem holds_update_user (hkey : r'.key = r.key) (hlevel : r'.phase.level.2 = r.phase.level.2) :
    r'.holds = update r.holds (.user r.key.userID) r'.phase.level.1 := by
  funext s
  cases s with
  | user id =>
    by_cases hid : id = r.key.userID <;> simp [holds, hkey, hid]
  | key id => simp [holds, hkey, hlevel]

theorem holds_update_key (hkey : r'.key = r.key) (hlevel : r'.phase.level.1 = r.phase.level.1) :
    r'.holds = update r.holds (.key r.key.keyID) r'.phase.level.2 := by
  funext s
  cases s with
  | user id => simp [holds, hkey, hlevel]
  | key id =>
    by_cases hid : id = r.key.keyID <;> simp [holds, hkey, hid]

/-- The slots a request counts for are published, and those it is going to use are in the snapshot
it has loaded. -/
structure Anchored (store : GateSnapshot) (r : Request) : Prop where
  held : ∀ s, r.holds s → (store.lookup s).isSome
  loaded : ∀ snap, r.phase.snapshot = some snap →
    (∀ s, (snap.lookup s).isSome → (store.lookup s).isSome) ∧
    (∀ s, r.holds s → (snap.lookup s).isSome) ∧
    (r.phase.keyFound → (snap.lookup (.key r.key.keyID)).isSome)

/-- The snapshot that a request has after a step is the published one, or the one it had before. -/
def Follows (store : GateSnapshot) (r r' : Request) : Prop :=
  ∀ snap, r'.phase.snapshot = some snap →
    snap = store ∧ r'.phase.keyFound = false ∨
      r.phase.snapshot = some snap ∧
        (r'.phase.keyFound → r.phase.keyFound ∨ (snap.lookup (.key r.key.keyID)).isSome)

variable {r' r : Request}

theorem Follows.leaves (h : r'.phase.snapshot = none) : r.Follows store r' := by
  intro snap hsnap
  rw [h] at hsnap
  cases hsnap

theorem Follows.loads (h : r'.phase.snapshot = some store) (hkey : r'.phase.keyFound = false) :
    r.Follows store r' := by
  intro snap hsnap
  exact .inl ⟨Option.some_inj.mp (hsnap.symm.trans h), hkey⟩

theorem Follows.keeps (h : r'.phase.snapshot = r.phase.snapshot)
    (hkey : r'.phase.keyFound → r.phase.keyFound) : r.Follows store r' := by
  intro snap hsnap
  exact .inr ⟨h ▸ hsnap, fun htrue => .inl (hkey htrue)⟩

theorem Anchored.step {store : GateSnapshot} (h : r.Anchored store) (hkey : r'.key = r.key)
    (hholds : ∀ s, r'.holds s → r.holds s ∨
      ∃ snap, r.phase.snapshot = some snap ∧ (snap.lookup s).isSome)
    (hsnap : r.Follows store r') : r'.Anchored store := by
  have held : ∀ s, r'.holds s → (store.lookup s).isSome := by
    intro s hs
    rcases hholds s hs with hs | ⟨snap, hsnap, hfound⟩
    · exact h.held s hs
    · exact (h.loaded snap hsnap).1 s hfound
  refine ⟨held, fun snap hsnap' => ?_⟩
  rcases hsnap snap hsnap' with ⟨rfl, hfalse⟩ | ⟨hsame, hkeyFound⟩
  · exact ⟨fun _ => id, held, fun htrue => by simp [hfalse] at htrue⟩
  · obtain ⟨hsub, hfound, hk⟩ := h.loaded snap hsame
    refine ⟨hsub, fun s hs => ?_, fun htrue => hkey ▸ (hkeyFound htrue).elim hk id⟩
    rcases hholds s hs with hs | ⟨snap', hsnap', hs⟩
    · exact hfound s hs
    · rwa [Option.some_inj.mp (hsame.symm.trans hsnap')]

theorem Anchored.mono {store' : GateSnapshot} (h : r.Anchored store)
    (hsub : ∀ s, (store.lookup s).isSome → (store'.lookup s).isSome) : r.Anchored store' :=
  ⟨fun s hs => hsub s (h.held s hs), fun snap hsnap =>
    ⟨fun s hs => hsub s ((h.loaded snap hsnap).1 s hs), (h.loaded snap hsnap).2⟩⟩

end Request

def Touch.Moves (before after : Slot → Bool) : Touch → Prop
  | .nothing => after = before
  | .inc slot _ => before slot = false ∧ after = update before slot true
  | .dec slot _ => before slot = true ∧ after = update before slot false

theorem giveBack_moves {before after : Slot → Bool} {snap : GateSnapshot} {slot : Slot}
    {held : Bool} (hfound : before slot → (snap.lookup slot).isSome) (hheld : before slot = held)
    (hafter : after = update before slot false) :
    (giveBack snap slot held).Moves before after := by
  unfold giveBack
  split
  next htrue =>
    obtain ⟨c, hc⟩ := Option.isSome_iff_exists.mp (hfound (hheld.trans htrue))
    rw [hc]
    exact ⟨hheld.trans htrue, hafter⟩
  next hfalse =>
    rw [Bool.not_eq_true] at hfalse
    rw [hafter, ← hfalse, ← hheld, Touch.Moves, Function.update_eq_self]

/-- All that a step of a request can do. -/
structure Request.Advances (store : GateSnapshot) (r r' : Request) (t : Touch) : Prop where
  moves : t.Moves r.holds r'.holds
  found : ∀ slot c, t = .inc slot c →
    ∃ snap, r.phase.snapshot = some snap ∧ (snap.lookup slot).isSome
  follows : r.Follows store r'

variable {slot : Slot} {snap : GateSnapshot}

namespace Request.Advances

variable {r r' : Request}

theorem quiet (hkey : r'.key = r.key) (hlevel : r'.phase.level = r.phase.level)
    (hfollows : r.Follows store r') : r.Advances store r' .nothing :=
  ⟨holds_congr hkey hlevel, nofun, hfollows⟩

theorem counts {c : Nat} (hfree : r.holds slot = false)
    (hholds : r'.holds = update r.holds slot true) (hsnap : r.phase.snapshot = some snap)
    (hfound : (snap.lookup slot).isSome) (hfollows : r.Follows store r') :
    r.Advances store r' (.inc slot c) := by
  refine ⟨⟨hfree, hholds⟩, fun slot' c' ht => ?_, hfollows⟩
  cases ht
  exact ⟨snap, hsnap, hfound⟩

theorem givesBack {held : Bool} (h : r.Anchored store) (hsnap : r.phase.snapshot = some snap)
    (hheld : r.holds slot = held) (hholds : r'.holds = update r.holds slot false)
    (hfollows : r.Follows store r') : r.Advances store r' (giveBack snap slot held) := by
  refine ⟨giveBack_moves ((h.loaded snap hsnap).2.1 slot) hheld hholds, ?_, hfollows⟩
  intro slot' c' ht
  unfold giveBack at ht
  split at ht
  · split at ht <;> cases ht
  · cases ht

theorem anchored {t : Touch} (hstep : r.Advances store r' t) (hkey : r'.key = r.key)
    (h : r.Anchored store) : r'.Anchored store := by
  refine h.step hkey (fun s hs => ?_) hstep.follows
  have hmoves := hstep.moves
  cases t with
  | nothing => exact .inl (hmoves ▸ hs)
  | dec slot c =>
    rw [hmoves.2] at hs
    by_cases hslot : s = slot
    · simp [hslot] at hs
    · exact .inl (by rwa [update_of_ne hslot] at hs)
  | inc slot c =>
    rw [hmoves.2] at hs
    by_cases hslot : s = slot
    · exact .inr (hslot ▸ hstep.found slot c rfl)
    · exact .inl (by rwa [update_of_ne hslot] at hs)

end Request.Advances

namespace SlotGate

variable {w : SlotGate} {env : GateEnv} {r : Request}

open Request in
variable (env) in
theorem advance_spec (h : r.Anchored w.store) :
    r.Advances w.store { r with phase := (w.advance env r.key r.phase).1 }
      (w.advance env r.key r.phase).2 := by
  obtain ⟨m, phase⟩ := r
  cases phase with
  | idle => exact .quiet rfl rfl (.loads rfl rfl)
  | countUser snap =>
    simp only [advance]
    split
    · next c hlookup =>
      exact .counts rfl (holds_update_user rfl rfl) rfl (by simp [hlookup]) (.keeps rfl id)
    · exact .quiet rfl rfl (.keeps rfl id)
  | checkShare snap c =>
    simp only [advance]
    split <;> exact .quiet rfl rfl (.keeps rfl id)
  | checkView snap c =>
    simp only [advance]
    split
    · exact .quiet rfl rfl (.keeps rfl id)
    · exact .quiet rfl rfl (.leaves rfl)
  | rollBack c =>
    refine ⟨⟨?_, holds_update_user rfl rfl⟩, nofun, .leaves rfl⟩
    simp [holds, Phase.level]
  | countKey snap user =>
    simp only [advance]
    split
    · split
      · next c hlookup =>
        split
        · refine .quiet rfl rfl fun snap' hsnap => ?_
          cases hsnap
          exact .inr ⟨rfl, fun _ => .inr (by simp [hlookup])⟩
        · exact .counts rfl (holds_update_key rfl rfl) rfl (by simp [hlookup]) (.leaves rfl)
      · exact .quiet rfl rfl (.leaves rfl)
    · exact .quiet rfl rfl (.leaves rfl)
  | checkKeyView snap user c =>
    simp only [advance]
    split
    · exact .quiet rfl rfl (.keeps rfl id)
    · exact .quiet rfl rfl (.keeps rfl fun _ => rfl)
  | borrowKey snap user c =>
    simp only [advance]
    split
    · exact .quiet rfl rfl (.keeps rfl fun _ => rfl)
    · exact .counts rfl (holds_update_key rfl rfl) rfl ((h.loaded snap rfl).2.2 rfl) (.leaves rfl)
  | rollBackUser snap user =>
    refine .givesBack h rfl ?_ (holds_update_user rfl rfl) (.leaves rfl)
    simp [holds, Phase.level]
  | admitted user key =>
    simp only [advance]
    split
    · exact .quiet rfl rfl (.loads rfl rfl)
    · next hnone =>
      simp only [Bool.or_eq_true, not_or, Bool.not_eq_true] at hnone
      exact .quiet rfl (by simp [Phase.level, hnone]) (.leaves rfl)
  | releaseUser snap user key =>
    refine .givesBack h rfl ?_ (holds_update_user rfl rfl) (.keeps rfl id)
    simp [holds, Phase.level]
  | releaseKey snap key =>
    refine .givesBack h rfl ?_ (holds_update_key rfl rfl) (.leaves rfl)
    simp [holds, Phase.level]
  | refused | released => exact .quiet rfl rfl (.leaves rfl)

def holders (w : SlotGate) (s : Slot) : Nat := w.reqs.countP (·.holds s)

/-- Every counter of a snapshot is backed by requests that hold its slot. -/
def Backed (w : SlotGate) (snap : GateSnapshot) : Prop :=
  ∀ s c, snap.lookup s = some c → c < w.next ∧ w.counters s c ≤ w.holders s

/-- Counters are never negative, and a request's cell stays the one that it counted in. -/
structure Inv (w : SlotGate) : Prop where
  anchored : ∀ r ∈ w.reqs, r.Anchored w.store
  nonneg : ∀ s c, 0 ≤ w.counters s c
  store : w.Backed w.store
  building : ∀ snap, w.building = some snap → w.Backed snap

variable {i : Nat} {v : Int} (t : Touch)

theorem holders_set (hr : w.reqs[i]? = some r) (r' : Request) (s : Slot) :
    (w.reqs.set i r').countP (·.holds s) + (if r.holds s then 1 else 0) =
      w.holders s + if r'.holds s then 1 else 0 := by
  obtain ⟨hi, rfl⟩ := List.getElem?_eq_some_iff.mp hr
  rw [List.countP_set hi]
  have hle : (if w.reqs[i].holds s then 1 else 0) ≤ w.holders s := by
    split
    · exact countP_pos_iff.mpr ⟨_, getElem_mem hi, ‹_›⟩
    · exact Nat.zero_le _
  unfold holders at *
  omega

theorem setCounter_apply (slot : Slot) (c : Nat) (v : Int) (s : Slot) (c' : Nat) :
    (w.setCounter slot c v).counters s c' =
      if s = slot ∧ c' = c then v else w.counters s c' := by
  by_cases hs : s = slot
  · subst hs
    by_cases hc : c' = c <;> simp [setCounter, hc]
  · simp [setCounter, hs]

theorem Backed.alloc (h : w.Backed snap) (snap' : GateSnapshot) :
    (w.alloc snap' slot v).1.Backed snap := by
  intro s c hlookup
  obtain ⟨hlt, hle⟩ := h s c hlookup
  refine ⟨Nat.lt_succ_of_lt hlt, ?_⟩
  have hne : ¬ (s = slot ∧ c = w.next) := fun h => by omega
  have hcounter := setCounter_apply (w := w) slot w.next v s c
  rw [if_neg hne] at hcounter
  exact hcounter.trans_le hle

theorem Backed.alloc_cons (h : w.Backed snap) (hv : v ≤ w.holders slot) :
    (w.alloc snap slot v).1.Backed (w.alloc snap slot v).2 := by
  intro s c hlookup
  simp only [SlotGate.alloc, lookup_cons] at hlookup
  split at hlookup
  next heq =>
    obtain rfl := beq_iff_eq.mp heq
    cases hlookup
    refine ⟨Nat.lt_succ_self _, ?_⟩
    have hcounter := setCounter_apply (w := w) s w.next v s w.next
    rw [if_pos ⟨rfl, rfl⟩] at hcounter
    exact hcounter.trans_le hv
  · exact h.alloc _ s c hlookup

theorem setCounter_nonneg (h : ∀ s c, 0 ≤ w.counters s c) (slot : Slot) (c : Nat) (hv : 0 ≤ v) :
    ∀ s c', 0 ≤ (w.setCounter slot c v).counters s c' := by
  intro s c'
  rw [setCounter_apply]
  split
  · exact hv
  · exact h s c'

@[simp] theorem touch_next : (w.touch t).next = w.next := by
  unfold touch
  split <;> rfl

@[simp] theorem touch_store : (w.touch t).store = w.store := by
  unfold touch
  split <;> rfl

@[simp] theorem touch_building : (w.touch t).building = w.building := by
  unfold touch
  split <;> rfl

theorem touch_nonneg (h : ∀ s c, 0 ≤ w.counters s c) :
    ∀ t s c, 0 ≤ (w.touch t).counters s c
  | .nothing => h
  | .inc (.user id) c => setCounter_nonneg h _ _ (by
      have := h (.user id) c
      simp only [incCounter]
      split_ifs <;> omega)
  | .inc (.key id) c => setCounter_nonneg h _ _ (by
      have := h (.key id) c
      omega)
  | .dec slot c => setCounter_nonneg h _ _ (by
      have := h slot c
      unfold decNonNegative
      split <;> omega)

theorem touch_inc_le (h : ∀ s c, 0 ≤ w.counters s c) (slot : Slot) (c : Nat) (s : Slot) (c' : Nat) :
    (w.touch (.inc slot c)).counters s c' ≤ w.counters s c' + if s = slot then 1 else 0 := by
  have hc := h s c'
  cases slot with
  | user id =>
    rw [touch, setCounter_apply]
    split
    next heq =>
      obtain ⟨rfl, rfl⟩ := heq
      simp only [incCounter]
      split_ifs <;> omega
    · split <;> omega
  | key id =>
    rw [touch, setCounter_apply]
    split
    next heq =>
      obtain ⟨rfl, rfl⟩ := heq
      simp
    · split <;> omega

/-- What a request's step leaves of a snapshot's backing: an increment adds a holder with it, and a
decrement that takes a holder away hits the snapshot's own counter. -/
theorem Backed.request {r' : Request} {t : Touch} (h : w.Backed snap)
    (hnonneg : ∀ s c, 0 ≤ w.counters s c) (hr : w.reqs[i]? = some r)
    (hmoves : t.Moves r.holds r'.holds)
    (hdec : ∀ slot c, t = .dec slot c → ∀ c', snap.lookup slot = some c' → c' = c) :
    ({ w.touch t with reqs := w.reqs.set i r' } : SlotGate).Backed snap := by
  intro s c hlookup
  obtain ⟨hlt, hle⟩ := h s c hlookup
  refine ⟨by simpa using hlt, ?_⟩
  have hholders := holders_set hr r' s
  simp only [holders] at hle hholders ⊢
  cases t with
  | nothing =>
    rw [show r'.holds = r.holds from hmoves] at hholders
    simp only [touch]
    omega
  | inc slot c₀ =>
    have htouch := touch_inc_le hnonneg slot c₀ s c
    rw [hmoves.2] at hholders
    by_cases hs : s = slot
    · subst hs
      simp only [hmoves.1, update_self, if_true, Bool.false_eq_true, if_false] at hholders htouch
      omega
    · simp only [update_of_ne hs, if_neg hs] at hholders htouch
      omega
  | dec slot c₀ =>
    have hc := hnonneg s c
    rw [hmoves.2] at hholders
    simp only [touch, setCounter_apply]
    by_cases hs : s = slot
    · subst hs
      obtain rfl := hdec s c₀ rfl c hlookup
      simp only [hmoves.1, update_self, if_true, Bool.false_eq_true] at hholders
      rw [if_pos ⟨rfl, rfl⟩, decNonNegative]
      split <;> omega
    · simp only [update_of_ne hs] at hholders
      rw [if_neg fun h => hs h.1]
      omega

theorem lookup_isSome_of_all {snap' : GateSnapshot}
    (h : snap.all fun e => (snap'.lookup e.1).isSome) (s : Slot) (hs : (snap.lookup s).isSome) :
    (snap'.lookup s).isSome := by
  obtain ⟨e, he, heq⟩ := lookup_isSome_iff.mp hs
  obtain rfl := beq_iff_eq.mp heq
  exact all_eq_true.mp h e he

theorem inv_step_request (h : w.Inv) (i : Nat) (env : GateEnv)
    (hcurrent : w.decrementsCurrent (.request i env)) : (w.step (.request i env)).Inv := by
  simp only [step]
  cases hr : w.reqs[i]? with
  | none => exact h
  | some r =>
    have hmem := mem_of_getElem? hr
    have hstep := advance_spec env (h.anchored r hmem)
    simp only [decrementsCurrent, hr] at hcurrent
    refine ⟨?_, touch_nonneg h.nonneg _, ?_, ?_⟩
    · intro r' hr'
      simp only [touch_store]
      rcases mem_or_eq_of_mem_set hr' with hr' | rfl
      · exact h.anchored r' hr'
      · exact hstep.anchored rfl (h.anchored r hmem)
    · rw [touch_store]
      refine h.store.request h.nonneg hr hstep.moves fun slot c ht c' hc' => ?_
      simp only [ht, Bool.and_eq_true, decide_eq_true_eq] at hcurrent
      exact Option.some_inj.mp (hc'.symm.trans hcurrent.1)
    · simp only [touch_building]
      intro snap hsnap
      refine (h.building snap hsnap).request h.nonneg hr hstep.moves fun slot c ht c' hc' => ?_
      simp [ht, hsnap, hc'] at hcurrent

theorem copied_le (h : w.Inv) (slot : Slot) :
    ((w.store.lookup slot).map (w.counters slot)).getD 0 ≤ w.holders slot := by
  cases hlookup : w.store.lookup slot with
  | none => exact Int.natCast_nonneg _
  | some c => exact (h.store slot c hlookup).2

theorem copied_nonneg (h : w.Inv) (slot : Slot) :
    0 ≤ ((w.store.lookup slot).map (w.counters slot)).getD 0 := by
  cases w.store.lookup slot with
  | none => exact le_refl _
  | some c => exact h.nonneg slot c

theorem inv_step (h : w.Inv) {op : SlotOp} (hpresent : w.staysPresent op)
    (hcurrent : w.decrementsCurrent op) : (w.step op).Inv := by
  cases op with
  | request i env => exact inv_step_request h i env hcurrent
  | reload =>
    simp only [step]
    split
    · refine ⟨h.anchored, h.nonneg, h.store, fun snap hsnap => ?_⟩
      cases hsnap
      intro s c hlookup
      cases hlookup
    · exact h
  | copy slot =>
    simp only [step]
    cases hb : w.building with
    | none => exact h
    | some snap =>
      simp only
      split
      · exact h
      · refine ⟨h.anchored, setCounter_nonneg h.nonneg _ _ (copied_nonneg h slot),
          h.store.alloc snap, fun snap' hsnap' => ?_⟩
        cases hsnap'
        exact (h.building snap hb).alloc_cons (copied_le h slot)
  | publish =>
    simp only [step]
    cases hb : w.building with
    | none => exact h
    | some snap =>
      simp only [staysPresent, hb] at hpresent
      exact ⟨fun r hr => (h.anchored r hr).mono (lookup_isSome_of_all hpresent), h.nonneg,
        h.building snap hb, fun _ hsnap => by cases hsnap⟩
  | upsert slot =>
    simp only [step]
    split
    · exact h
    next hnone =>
      simp only [Bool.or_eq_true, not_or, Option.not_isSome_iff_eq_none] at hnone
      refine ⟨fun r hr => (h.anchored r hr).mono fun s hs => ?_,
        setCounter_nonneg h.nonneg _ _ (le_refl 0),
        h.store.alloc_cons (Int.natCast_nonneg _), fun snap hsnap => ?_⟩
      · simp only [SlotGate.alloc, lookup_cons]
        split
        · rfl
        · exact hs
      · exact absurd (hnone.1.symm.trans hsnap) (by simp)

end SlotGate

theorem Request.holds_of_settled {r : Request} (h : r.settled) (s : Slot) : r.holds s = false := by
  obtain ⟨m, phase⟩ := r
  simp only [settled, Bool.or_eq_true, decide_eq_true_eq] at h
  rcases h with (rfl | rfl) | rfl <;> cases s <;> rfl

open SlotGate

/-- In every interleaving in which users and keys stay present and no counter is decremented once a
reload has copied or replaced it, every published counter is 0 whenever all requests are settled. -/
theorem counters_zero_of_settled {keys : List KeyMeta} {ops : List SlotOp}
    (hpresent : Run.Each step (fun w op => w.staysPresent op) (start keys) ops)
    (hcurrent : Run.Each step (fun w op => w.decrementsCurrent op) (start keys) ops) :
    ∀ w ∈ Run.states step (start keys) ops, (∀ r ∈ w.reqs, r.settled) →
      ∀ s c, w.store.lookup s = some c → w.counters s c = 0 := by
  intro w hw hsettled s c hlookup
  have hstart : (start keys).Inv := by
    refine ⟨fun r hr => ?_, fun _ _ => le_refl 0, fun s c h => ?_, fun snap h => ?_⟩
    · obtain ⟨key, -, rfl⟩ := mem_map.mp hr
      refine ⟨fun s hs => ?_, fun snap hsnap => ?_⟩
      · cases s <;> cases hs
      · cases hsnap
    · cases h
    · cases h
  have hinv := (hpresent.and hcurrent).states_inv Inv (fun w op h hop => inv_step h hop.1 hop.2)
    hstart w hw
  have hholders : w.holders s = 0 := countP_eq_zero.mpr fun r hr => by
    simp [Request.holds_of_settled (hsettled r hr)]
  have hle := (hinv.store s c hlookup).2
  have hnonneg := hinv.nonneg s c
  omega

def slotKey : KeyMeta := { keyID := 1, userID := 7, keyMaxConc := 5 }

def fillGate : List SlotOp := [.reload, .copy (.user 7), .copy (.key 1), .publish]

def acquireSteps : List SlotOp := List.replicate 4 (.request 0 {})

def releaseSteps : List SlotOp := List.replicate 3 (.request 0 {})

theorem counters_zero_between_reloads :
    let ops := fillGate ++ acquireSteps ++ fillGate ++ releaseSteps
    let w := ops.foldl step (start [slotKey])
    w.store.lookup (.user 7) = some 2 ∧ w.counters (.user 7) 2 = 0 := by
  have hlookup : ((fillGate ++ acquireSteps ++ fillGate ++ releaseSteps).foldl step
      (start [slotKey])).store.lookup (.user 7) = some 2 := by decide
  exact ⟨hlookup, counters_zero_of_settled (by decide) (by decide) _ Run.foldl_mem_states
    (by decide) _ _ hlookup⟩

/-- The release lands between the copy and the publication: both slots stay taken although no
request is left. -/
theorem counters_leak_across_reload :
    let ops := fillGate ++ acquireSteps ++ [.reload, .copy (.user 7), .copy (.key 1)] ++
      releaseSteps ++ [.publish]
    let w := ops.foldl step (start [slotKey])
    Run.Each step (fun w op => w.staysPresent op) (start [slotKey]) ops ∧
      (∀ r ∈ w.reqs, r.phase = .released) ∧
      w.store.lookup (.user 7) = some 2 ∧ w.counters (.user 7) 2 = 1 ∧
      w.store.lookup (.key 1) = some 3 ∧ w.counters (.key 1) 3 = 1 := by
  decide

end C4Gateway
