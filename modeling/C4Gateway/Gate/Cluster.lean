import C4Gateway.Scheduler.Counters
import Mathlib.Algebra.BigOperators.Fin
import Mathlib.Algebra.Order.BigOperators.Group.Finset

/-! Admission over the instances of a cluster, one request at a time.  An instance admits up to its
share of a limit by itself, and borrows beyond that as far as its view of the whole cluster allows.
The view is taken here as fresh and exact. -/

namespace C4Gateway

def casInc (cur max : Int) : Option Int := if cur ≥ max then none else some (cur + 1)

/-- The user part of `acquire` without interference: the counter after it, `none` for a refusal. -/
def acquireUser (env : GateEnv) (limit cur : Int) : Option Int :=
  let c := incCounter cur
  if limit > 0 ∧ c > concShare limit (instancesN env.instances) ∧
      ¬ concAllows env.view env.now limit c then none
  else some c

/-- The key part of `acquire` without interference, for a key with a limit. -/
def acquireKey (env : GateEnv) (limit cur : Int) : Option Int :=
  match casInc cur (concShare limit (instancesN env.instances)) with
  | some c => some c
  | none =>
    if concAllows env.view env.now limit (saturatingQuotaAdd cur 1) then casInc cur limit
    else none

namespace SlotGate

/-- The steps of a request until it is admitted or refused, with nothing in between; the views of
the user and of the key differ. -/
def settle (userEnv keyEnv : GateEnv) (m : KeyMeta) : Nat → SlotGate → Phase → SlotGate × Phase
  | 0, w, phase => (w, phase)
  | fuel + 1, w, phase =>
    match phase with
    | .admitted .. | .refused => (w, phase)
    | .checkShare .. | .checkView .. =>
      let (phase', t) := w.advance userEnv m phase
      settle userEnv keyEnv m fuel (w.touch t) phase'
    | _ =>
      let (phase', t) := w.advance keyEnv m phase
      settle userEnv keyEnv m fuel (w.touch t) phase'

def acquire (w : SlotGate) (userEnv keyEnv : GateEnv) (m : KeyMeta) : SlotGate × Phase :=
  settle userEnv keyEnv m 8 w .idle

@[simp] theorem setCounter_self (w : SlotGate) (slot : Slot) (c : Nat) (v : Int) :
    (w.setCounter slot c v).counters slot c = v := by
  simp [setCounter]

@[simp] theorem setCounter_user_key (w : SlotGate) (u k : Int) (c c' : Nat) (v : Int) :
    (w.setCounter (.user u) c v).counters (.key k) c' = w.counters (.key k) c' := by
  simp [setCounter]

theorem settle_refused (userEnv keyEnv : GateEnv) (m : KeyMeta) (fuel : Nat) (w : SlotGate) :
    settle userEnv keyEnv m fuel w .refused = (w, .refused) := by
  cases fuel <;> rfl

section
variable {w : SlotGate} {snap : GateSnapshot} {userEnv keyEnv : GateEnv} {m : KeyMeta} {cu ck : Nat}

theorem settle_countKey (hu : snap.lookup (.user m.userID) = some cu)
    (hk : snap.lookup (.key m.keyID) = some ck) (hlimit : m.keyMaxConc > 0) (fuel : Nat) :
    settle userEnv keyEnv m (fuel + 4) w (.countKey snap true) =
      match acquireKey keyEnv m.keyMaxConc (w.counters (.key m.keyID) ck) with
      | some k => (w.setCounter (.key m.keyID) ck k, .admitted true true)
      | none =>
        (w.setCounter (.user m.userID) cu (decNonNegative (w.counters (.user m.userID) cu)),
          .refused) := by
  by_cases hshare : w.counters (.key m.keyID) ck ≥
      concShare m.keyMaxConc (instancesN keyEnv.instances)
  · by_cases hallows : concAllows keyEnv.view keyEnv.now m.keyMaxConc
        (saturatingQuotaAdd (w.counters (.key m.keyID) ck) 1)
    · by_cases hmax : w.counters (.key m.keyID) ck ≥ m.keyMaxConc
      · simp [settle, advance, acquireKey, casInc, giveBack, touch, hu, hk, hlimit, hshare, hallows,
          hmax, settle_refused]
      · simp [settle, advance, acquireKey, casInc, touch, hk, hlimit, hshare, hallows, hmax]
    · simp [settle, advance, acquireKey, casInc, giveBack, touch, hu, hk, hlimit, hshare, hallows]
  · simp [settle, advance, acquireKey, casInc, touch, hk, hlimit, hshare]

theorem settle_check {phase : Phase}
    (h : phase = .checkShare snap cu ∨ phase = .checkView snap cu) (fuel : Nat) :
    settle userEnv keyEnv m (fuel + 1) w phase =
      settle userEnv keyEnv m fuel w (w.advance userEnv m phase).1 := by
  rcases h with rfl | rfl <;> simp only [settle, advance] <;> split <;> rfl

theorem settle_checkShare_eq (fuel : Nat) :
    let c := w.counters (.user m.userID) cu
    settle userEnv keyEnv m (fuel + 3) w (.checkShare snap cu) =
      if m.userMaxConc > 0 ∧ c > concShare m.userMaxConc (instancesN userEnv.instances) then
        if concAllows userEnv.view userEnv.now m.userMaxConc c then
          settle userEnv keyEnv m (fuel + 1) w (.countKey snap true)
        else (w.setCounter (.user m.userID) cu (decNonNegative c), .refused)
      else settle userEnv keyEnv m (fuel + 2) w (.countKey snap true) := by
  intro c
  rw [settle_check (.inl rfl)]
  by_cases hshare : m.userMaxConc > 0 ∧ c > concShare m.userMaxConc (instancesN userEnv.instances)
  · have hstep : (w.advance userEnv m (.checkShare snap cu)).1 = .checkView snap cu := by
      simp only [advance, c, hshare, and_self, if_true]
    rw [hstep, settle_check (.inr rfl), if_pos hshare]
    by_cases hallows : concAllows userEnv.view userEnv.now m.userMaxConc c
    · simp only [advance, c, hallows, if_true]
    · simp only [advance, c, hallows]
      exact settle_refused ..
  · simp only [advance, c, hshare, if_false]

/-- The uninterrupted steps of a request do what the two parts of `acquire` say. -/
theorem acquire_eq (hu : w.store.lookup (.user m.userID) = some cu)
    (hk : w.store.lookup (.key m.keyID) = some ck) (hlimit : m.keyMaxConc > 0) :
    let user := w.counters (.user m.userID) cu
    let counted := w.setCounter (.user m.userID) cu (incCounter user)
    w.acquire userEnv keyEnv m =
      match acquireUser userEnv m.userMaxConc user,
          acquireKey keyEnv m.keyMaxConc (w.counters (.key m.keyID) ck) with
      | some _, some k => (counted.setCounter (.key m.keyID) ck k, .admitted true true)
      | _, _ =>
        (counted.setCounter (.user m.userID) cu (decNonNegative (incCounter user)), .refused) := by
  intro user counted
  have hstart : w.acquire userEnv keyEnv m =
      settle userEnv keyEnv m 6 counted (.checkShare w.store cu) := by
    have hcount : w.advance keyEnv m (.countUser w.store) =
        (.checkShare w.store cu, .inc (.user m.userID) cu) := by
      simp [advance, hu]
    change settle userEnv keyEnv m 6 (w.touch (w.advance keyEnv m (.countUser w.store)).2)
      (w.advance keyEnv m (.countUser w.store)).1 = _
    rw [hcount]
    rfl
  have hkey : ∀ fuel, settle userEnv keyEnv m (fuel + 4) counted (.countKey w.store true) = _ :=
    settle_countKey hu hk hlimit
  have hself : counted.counters (.user m.userID) cu = incCounter user := setCounter_self ..
  rw [setCounter_user_key, hself] at hkey
  rw [hstart, settle_checkShare_eq, hself, hkey 0, hkey 1, acquireUser]
  by_cases hshare : m.userMaxConc > 0 ∧ incCounter user >
      concShare m.userMaxConc (instancesN userEnv.instances)
  · by_cases hallows : concAllows userEnv.view userEnv.now m.userMaxConc (incCounter user)
    · cases acquireKey keyEnv m.keyMaxConc (w.counters (.key m.keyID) ck) <;> simp [hallows]
    · simp [hshare, hallows]
  · cases acquireKey keyEnv m.keyMaxConc (w.counters (.key m.keyID) ck) <;>
      simp [hshare, ← and_assoc]

theorem acquire_eq_filled :
    let w := fillGate.foldl step (start [slotKey])
    w.acquire {} {} slotKey =
      ((w.setCounter (.user 7) 0 1).setCounter (.key 1) 1 1, .admitted true true) :=
  @acquire_eq (fillGate.foldl step (start [slotKey])) {} {} slotKey 0 1 (by decide) (by decide)
    (by decide)

end
end SlotGate

/-- What a limit is set on: a key, at the gate, or an account, in the scheduler. -/
inductive Limited where
  | key
  | account
  deriving DecidableEq, Repr

/-- The counter after an admission, `none` for a refusal. -/
def Limited.take (env : GateEnv) (limit cur : Int) : Limited → Option Int
  | .key => acquireKey env limit cur
  | .account => if SlotLimit.admits cur (.account limit env) then some (cur + 1) else none

/-- Admissions and releases at the instances of a cluster.  The view that an admission goes by was
built at `builtAt`. -/
inductive ClusterOp (n : Nat) where
  | acquire (i : Fin n) (builtAt now : Int) (fresh : now - builtAt < concViewStale)
  | release (i : Fin n)

namespace Cluster

variable {n : Nat}

def idle : Fin n → Int := fun _ => 0

/-- The requests in flight in the whole cluster, `w` being the counters of its instances. -/
def total (w : Fin n → Int) : Int := ∑ i, w i

def env (w : Fin n → Int) (i : Fin n) (builtAt now : Int) : GateEnv where
  instances := some n
  view := some ⟨total w, w i, builtAt⟩
  now := now

def step (slot : Limited) (limit : Int) (w : Fin n → Int) : ClusterOp n → Fin n → Int
  | .acquire i builtAt now _ =>
    Function.update w i ((slot.take (env w i builtAt now) limit (w i)).getD (w i))
  | .release i => Function.update w i (decNonNegative (w i))

/-- A request is admitted exactly if the cluster has not reached the limit. -/
def Lawful (slot : Limited) (limit : Int) (w : Fin n → Int) : ClusterOp n → Prop
  | .acquire i builtAt now _ =>
    (slot.take (env w i builtAt now) limit (w i)).isSome ↔ total w < limit
  | .release _ => True

/-- An instance that is below its share finds the cluster below the limit, and one that has to
borrow does not ask for the last slot. -/
def Spared (limit : Int) (w : Fin n → Int) : ClusterOp n → Prop
  | .acquire i _ _ _ =>
    if w i < concShare limit n then total w < limit else total w ≠ limit - 1
  | .release _ => True

theorem concShare_pos (limit k : Int) : 1 ≤ concShare limit k := by
  unfold concShare
  omega

variable {limit : Int} (k : Int) (slot : Limited) (w : Fin n → Int) (i : Fin n)

theorem take_isSome_iff (builtAt now : Int) (h0 : 0 ≤ w i) (hle : w i ≤ total w)
    (hmax : limit ≤ maxInt64) (hfresh : now - builtAt < concViewStale) :
    (slot.take (env w i builtAt now) limit (w i)).isSome ↔
      w i < concShare limit n ∨ total w + 1 < limit := by
  have hn : instancesN (env w i builtAt now).instances = n := by
    have := i.pos
    simp [instancesN, env]
    omega
  have hallows : ∀ lnow,
      concAllows (env w i builtAt now).view (env w i builtAt now).now limit lnow =
      decide (total w - w i + lnow < limit) := by
    intro lnow
    simp [concAllows, env, not_le.mpr hfresh]
  by_cases hshare : w i < concShare limit n
  · cases slot <;>
      simp [Limited.take, acquireKey, casInc, SlotLimit.admits, hn, hshare, not_le.mpr hshare]
  cases slot with
  | key =>
    simp only [Limited.take, acquireKey, casInc, hn, hallows, not_lt.mp hshare,
      decide_eq_true_eq, hshare, false_or, ge_iff_le]
    -- A counter at the top of the range is not below any limit.
    have hsat : total w - w i + saturatingQuotaAdd (w i) 1 < limit ↔ total w + 1 < limit := by
      simp only [saturatingQuotaAdd]
      omega
    simp only [hsat]
    by_cases hborrow : total w + 1 < limit
    · simp [hborrow, show ¬ limit ≤ w i by omega]
    · simp [hborrow]
  | account =>
    simp only [Limited.take, SlotLimit.admits, hn, hallows, hshare, decide_false, Bool.false_or,
      Bool.and_eq_true, decide_eq_true_eq, false_or]
    by_cases hborrow : total w + 1 < limit
    · simp [hborrow, show w i < limit by omega, show total w - w i + (w i + 1) < limit by omega]
    · simp [show ¬ total w - w i + (w i + 1) < limit by omega, hborrow]

theorem le_total {w : Fin n → Int} (h : ∀ i, 0 ≤ w i) (i : Fin n) : w i ≤ total w :=
  Finset.single_le_sum (fun j _ => h j) (Finset.mem_univ i)

/-- One admission, at any counters. -/
theorem lawful_iff (hmax : limit ≤ maxInt64) (w : Fin n → Int) (h : ∀ i, 0 ≤ w i)
    (op : ClusterOp n) : Lawful slot limit w op ↔ Spared limit w op := by
  cases op with
  | release i => exact Iff.rfl
  | acquire i builtAt now fresh =>
    rw [Lawful, Spared, take_isSome_iff slot w i builtAt now (h i) (le_total h i) hmax fresh]
    by_cases hshare : w i < concShare limit n
    · simp [hshare]
    · simp only [hshare, false_or, if_false]
      omega

theorem eq_succ_of_take {slot : Limited} {e : GateEnv} {cur c : Int}
    (h : slot.take e limit cur = some c) : c = cur + 1 := by
  have hcas : ∀ {max c'}, casInc cur max = some c' → c' = cur + 1 := by
    intro max c' hc
    unfold casInc at hc
    split_ifs at hc
    exact (Option.some_inj.mp hc).symm
  cases slot with
  | key =>
    simp only [Limited.take, acquireKey] at h
    split at h
    next c' hc =>
      exact (Option.some_inj.mp h) ▸ hcas hc
    · split at h
      · exact hcas h
      · cases h
  | account =>
    simp only [Limited.take] at h
    split at h
    · exact (Option.some_inj.mp h).symm
    · cases h

theorem step_nonneg {slot : Limited} (h : ∀ i, 0 ≤ w i) (op : ClusterOp n) (j : Fin n) :
    0 ≤ step slot limit w op j := by
  cases op with
  | acquire i builtAt now fresh =>
    simp only [step, Function.update_apply]
    split
    · have := h i
      cases hc : slot.take (env w i builtAt now) limit (w i) with
      | none => exact this
      | some c =>
        rw [Option.getD_some, eq_succ_of_take hc]
        omega
    · exact h j
  | release i =>
    have := h i
    simp only [step, Function.update_apply, decNonNegative]
    split
    · omega
    · exact h j

/-- The counters with requests at the first instance only. -/
def first (k : Int) : Fin (n + 1) → Int := Function.update idle 0 k

@[simp] theorem first_zero : (first k : Fin (n + 1) → Int) 0 = k :=
  Function.update_self ..

@[simp] theorem first_succ : first k i.succ = 0 :=
  Function.update_of_ne (Fin.succ_ne_zero i) ..

@[simp] theorem total_first : total (first k : Fin (n + 1) → Int) = k := by
  simp [total, Fin.sum_univ_succ]

theorem first_nonneg {k : Int} (h : 0 ≤ k) (i : Fin (n + 1)) : 0 ≤ first k i := by
  cases i using Fin.cases with
  | zero => simpa using h
  | succ i => simp

theorem fill_first (hmax : limit ≤ maxInt64) (k : Nat)
    (hk : (k : Int) ≤ 1 ∨ (k : Int) ≤ limit - 1) :
    (List.replicate k (.acquire 0 0 0 (by decide))).foldl (step slot limit) idle =
      (first k : Fin (n + 1) → Int) := by
  induction k with
  | zero => simp [first, idle]
  | succ k ih =>
    rw [List.replicate_succ', List.foldl_append, ih (by omega)]
    have hshare := concShare_pos limit (n + 1 : Nat)
    have hsome := (take_isSome_iff slot (first k : Fin (n + 1) → Int) 0 0 0 (by simp) (by simp)
      hmax (by decide)).mpr (by simp only [first_zero, total_first]; omega)
    obtain ⟨c, hc⟩ := Option.isSome_iff_exists.mp hsome
    simp only [List.foldl_cons, step, hc]
    rw [eq_succ_of_take hc]
    simp [first]

/-- With more than one instance some run breaks the law: a limit of 1 is exceeded, and the last slot
of a larger one is never lent. -/
theorem exists_unlawful (h1 : 1 ≤ limit) (hmax : limit ≤ maxInt64) :
    ∃ ops, ¬ Run.Each (step slot limit) (Lawful slot limit) (idle : Fin (n + 2) → Int) ops := by
  have hlast : ∀ (k : Nat) (i : Fin (n + 2)), (k : Int) ≤ 1 ∨ (k : Int) ≤ limit - 1 →
      ¬ Spared limit (first k) (.acquire i 0 0 (by decide)) →
      ∃ ops, ¬ Run.Each (step slot limit) (Lawful slot limit) (idle : Fin (n + 2) → Int) ops := by
    intro k i hk hspared
    refine ⟨List.replicate k (.acquire 0 0 0 (by decide)) ++ [.acquire i 0 0 (by decide)],
      fun h => hspared ?_⟩
    rw [Run.Each.append, fill_first slot hmax k hk] at h
    exact (lawful_iff slot hmax _ (first_nonneg (by omega)) _).mp h.2.1
  obtain rfl | h2 : limit = 1 ∨ 2 ≤ limit := by omega
  · refine hlast 1 (Fin.succ 0) (.inl le_rfl) ?_
    have hshare := concShare_pos 1 (n + 1 + 1 : Nat)
    rw [Spared, first_succ, if_pos (by omega)]
    simp
  · refine hlast (limit - 1).toNat 0 (.inr (by omega)) ?_
    have hshare : concShare limit (n + 1 + 1 : Nat) ≤ limit - 1 := by
      have hdiv : limit / (n + 1 + 1 : Nat) < limit :=
        Int.ediv_lt_of_lt_mul (by omega) (by push_cast; nlinarith)
      unfold concShare
      omega
    rw [Spared, first_zero, total_first, if_neg (by omega)]
    omega

theorem concShare_one (h1 : 1 ≤ limit) : concShare limit (1 : Nat) = limit := by
  unfold concShare
  omega

/-- A single instance always keeps the law. -/
theorem spared_one (h1 : 1 ≤ limit) (w : Fin 1 → Int) (op : ClusterOp 1) : Spared limit w op := by
  cases op with
  | release i => trivial
  | acquire i builtAt now fresh =>
    have htotal : total w = w i := by
      rw [Subsingleton.elim i 0]
      exact Fin.sum_univ_one w
    rw [Spared, concShare_one h1]
    split <;> omega

/-- A run admits exactly the requests that find the cluster below the limit, exactly if each of its
admissions is spared; every run does so only with a single instance. -/
theorem run_lawful_iff (slot : Limited) (hn : 1 ≤ n) {limit : Int} (h1 : 1 ≤ limit)
    (hmax : limit ≤ maxInt64) :
    (∀ ops, Run.Each (step slot limit) (Lawful slot limit) (idle : Fin n → Int) ops ↔
      Run.Each (step slot limit) (Spared limit) (idle : Fin n → Int) ops) ∧
    ((∀ ops, Run.Each (step slot limit) (Lawful slot limit) (idle : Fin n → Int) ops) ↔ n = 1) := by
  have hiff : ∀ ops, Run.Each (step slot limit) (Lawful slot limit) (idle : Fin n → Int) ops ↔
      Run.Each (step slot limit) (Spared limit) (idle : Fin n → Int) ops := by
    intro ops
    exact Run.Each.congr_inv (fun w => ∀ i, 0 ≤ w i) (fun w op hw => step_nonneg w hw op)
      (fun w op hw => lawful_iff slot hmax w hw op) fun _ => le_rfl
  refine ⟨hiff, fun h => ?_, ?_⟩
  · obtain _ | _ | k := n
    · omega
    · rfl
    · obtain ⟨ops, hops⟩ := exists_unlawful slot h1 hmax (n := k)
      exact absurd (h ops) hops
  · rintro rfl ops
    exact (hiff ops).mpr (Run.Each.of_forall (spared_one h1))

theorem run_lawful_two :
    (∀ ops, Run.Each (step .key 2) (Lawful .key 2) (idle : Fin 2 → Int) ops ↔
      Run.Each (step .key 2) (Spared 2) (idle : Fin 2 → Int) ops) ∧
    ((∀ ops, Run.Each (step .key 2) (Lawful .key 2) (idle : Fin 2 → Int) ops) ↔ 2 = 1) :=
  run_lawful_iff .key (by decide) (by decide) (by decide)

def admitAll (slot : Limited) (limit : Int) (is : List (Fin 2)) : Fin 2 → Int :=
  (is.map fun i => .acquire i 0 0 (by decide)).foldl (step slot limit) idle

/-- Two instances.  Under a limit of 2 the second request of an instance is refused with one in
flight; under a limit of 1 each instance admits one; and under a limit of 4 one instance borrows a
third slot before the other takes its own two. -/
theorem limit_missed_and_exceeded :
    ¬ Lawful .key 2 (admitAll .key 2 [0]) (.acquire 0 0 0 (by decide)) ∧
      total (admitAll .key 2 [0, 0]) = 1 ∧ total (admitAll .key 1 [0, 1]) = 2 ∧
      total (admitAll .key 4 [0, 0, 0, 1, 1]) = 5 := by
  simp only [Lawful]
  decide +kernel

example : total (admitAll .account 2 [0, 0]) = 1 ∧ total (admitAll .account 1 [0, 1]) = 2 ∧
    total (admitAll .account 4 [0, 0, 0, 1, 1]) = 5 := by
  decide +kernel

end Cluster
end C4Gateway
