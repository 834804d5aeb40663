import MultiarchTuning.PodPlacement.Webhook
import Mathlib.Algebra.BigOperators.Group.List
import Mathlib.Algebra.Order.Ring.Nat

namespace MultiarchTuning

/-!
# Pod placement — the job that reports a gated pod

The job that `delayedSchedulingGatedEvent` submits to the worker pool asks the API server for
the gated pod, by namespace and name, under `wait.ExponentialBackoff` with a `Duration` of
2 ms, a `Factor` of 2 and 15 `Steps`.  A `Get` that finds the pod records the
`ArchitectureAwareSchedulingGateAdded` event and stops the loop; `NotFound` retries; any other
error stops it.  The API server is an input: its answers to the job's `Get`s, in order.

* `backoffLoop` — the loop of `wait.ExponentialBackoff` with no jitter and no cap: at most
  `steps` checks, and a sleep between two checks, the first `duration` long and each next one
  `factor` times longer.
* `backoffLoop_of_stop`, `backoffLoop_of_timeout`, `exponentialBackoff_cases` — the run of
  the loop for every sequence of answers of its condition: where it stops, what it returns
  and what it slept.
* `gatedEventJob` — the job, for any answers of the API server.
* `gatedEventJob_outcome` — the job records one event exactly when a `Get` finds the pod
  within 15 checks and before any other error; `gatedEventJob_sleep_total` — it sleeps at
  most 14 times, 32.766 s in all, half the 65.534 s that the comment above its `Backoff`
  computes.
* `handle_run_events_le_gatedPods` — over any run of `Handle`, the jobs in the worker pool
  record no more events than `GatedPods` has counted.
-/

/-! ### `wait.ExponentialBackoff` -/

/-- What `wait.ExponentialBackoff` returns: `nil`, the condition's error, or `ErrWaitTimeout`
    once the steps run out. -/
inductive WaitResult
  | done
  | failed (err : String)
  | timeout
  deriving DecidableEq

/-- A run of `wait.ExponentialBackoff`: what it returns, how many times it ran the condition,
    and the durations it slept, in order. -/
structure WaitRun where
  result : WaitResult
  checks : Nat
  sleeps : List Nat
  deriving DecidableEq

/-- `wait.Backoff` as the job fills it, with its `Duration` in nanoseconds; the job leaves
    `Jitter` and `Cap` at zero. -/
structure Backoff where
  duration : Nat
  factor : Nat
  steps : Nat

/-- The `Duration` that `(*Backoff).Step` leaves for the next step: multiplied by `Factor`,
    unless `Factor` is zero. -/
def nextDuration (factor duration : Nat) : Nat :=
  if factor = 0 then duration else duration * factor

/-- The loop of `wait.ExponentialBackoff`, with `steps` left and `i` checks made.  The
    condition answers whether it holds and its error; an error or a hold ends the loop.
    Otherwise the loop ends after its last step, or sleeps `duration` (`Step`) and checks
    again. -/
def backoffLoop (condition : Nat → Bool × Option String) (duration factor : Nat) :
    (steps : Nat) → (i : Nat) → WaitRun
  | 0, _ => ⟨.timeout, 0, []⟩
  | steps + 1, i =>
    match condition i with
    | (_, some err) => ⟨.failed err, 1, []⟩
    | (true, none) => ⟨.done, 1, []⟩
    | (false, none) =>
      if steps = 0 then ⟨.timeout, 1, []⟩ else
      let r := backoffLoop condition (nextDuration factor duration) factor steps (i + 1)
      ⟨r.result, r.checks + 1, duration :: r.sleeps⟩

/-- `wait.ExponentialBackoff`: the condition is given the number of checks made before it. -/
def exponentialBackoff (b : Backoff) (condition : Nat → Bool × Option String) : WaitRun :=
  backoffLoop condition b.duration b.factor b.steps 0

/-- What `wait.ExponentialBackoff` returns when the condition ends the loop. -/
def stopResult : Bool × Option String → WaitResult
  | (_, some err) => .failed err
  | (true, none) => .done
  | (false, none) => .timeout

/-- The sleeps of a loop whose first `n` checks were followed by a sleep. -/
def backoffSleeps (duration factor n : Nat) : List Nat :=
  (List.range n).map fun j => duration * factor ^ j

theorem backoffSleeps_succ (duration factor n : Nat) :
    backoffSleeps duration factor (n + 1) = duration :: backoffSleeps (duration * factor) factor n := by
  simp [backoffSleeps, List.range_succ_eq_map, Nat.pow_succ', Nat.mul_assoc]

/-- The geometric series of the sleeps, for a factor of 2. -/
theorem sum_backoffSleeps_two (duration n : Nat) :
    (backoffSleeps duration 2 n).sum = duration * (2 ^ n - 1) := by
  induction n generalizing duration with
  | zero => rfl
  | succ n ih =>
    obtain ⟨y, hy⟩ : ∃ y, 2 ^ n = y + 1 := ⟨2 ^ n - 1, by have := n.one_le_two_pow; omega⟩
    rw [backoffSleeps_succ, List.sum_cons, ih, Nat.pow_succ, hy, Nat.add_sub_cancel,
      show (y + 1) * 2 - 1 = 2 * y + 1 by omega, Nat.mul_add, Nat.mul_one, Nat.mul_assoc,
      Nat.add_comm]

section Loop

variable (condition : Nat → Bool × Option String) (factor : Nat)

/-- **One check that ends the loop.** -/
theorem backoffLoop_of_stop_here {duration steps i : Nat} (h : condition i ≠ (false, none)) :
    backoffLoop condition duration factor (steps + 1) i = ⟨stopResult (condition i), 1, []⟩ := by
  rcases hc : condition i with ⟨_ | _, _ | err⟩ <;> simp_all [backoffLoop, stopResult]

/-- **One check that retries**, with a step left after it: a sleep of `duration`, then the
    next check. -/
theorem backoffLoop_of_retry {duration steps i : Nat} (h : condition i = (false, none)) :
    backoffLoop condition duration factor (steps + 2) i =
      let r := backoffLoop condition (nextDuration factor duration) factor (steps + 1) (i + 1)
      ⟨r.result, r.checks + 1, duration :: r.sleeps⟩ := by
  simp [backoffLoop, h]

/-- **The last step retries**: the loop ends without a sleep. -/
theorem backoffLoop_one_of_retry {duration i : Nat} (h : condition i = (false, none)) :
    backoffLoop condition duration factor 1 i = ⟨.timeout, 1, []⟩ := by
  simp [backoffLoop, h]

variable {condition factor}

/-- **A run that stops.**  When the `k`-th check, within the steps, is the first that does not
    retry, the loop makes `k + 1` checks, returns what that check says, and sleeps after each
    of the first `k`. -/
theorem backoffLoop_of_stop (hf : factor ≠ 0) {k : Nat} :
    ∀ {duration steps i : Nat}, k < steps → condition (i + k) ≠ (false, none) →
      (∀ j < k, condition (i + j) = (false, none)) →
      backoffLoop condition duration factor steps i =
        ⟨stopResult (condition (i + k)), k + 1, backoffSleeps duration factor k⟩ := by
  induction k with
  | zero =>
    intro duration steps i hk hstop _
    obtain ⟨steps, rfl⟩ : ∃ s, steps = s + 1 := ⟨steps - 1, by omega⟩
    exact backoffLoop_of_stop_here condition factor hstop
  | succ k ih =>
    intro duration steps i hk hstop hrun
    obtain ⟨steps, rfl⟩ : ∃ s, steps = s + 2 := ⟨steps - 2, by omega⟩
    have hshift : ∀ j, i + 1 + j = i + (j + 1) := fun j => by omega
    have h0 : condition i = (false, none) := hrun 0 (by omega)
    rw [backoffLoop_of_retry condition factor h0,
      ih (by omega) (by rwa [hshift]) (fun j hj => by rw [hshift]; exact hrun _ (by omega))]
    simp [backoffSleeps_succ, nextDuration, hf, hshift]

/-- **A run that times out.**  When every check within the steps retries, the loop makes all
    `steps` checks, returns `ErrWaitTimeout`, and sleeps between each two of them. -/
theorem backoffLoop_of_timeout (hf : factor ≠ 0) :
    ∀ {steps duration i : Nat}, 0 < steps → (∀ j < steps, condition (i + j) = (false, none)) →
      backoffLoop condition duration factor steps i =
        ⟨.timeout, steps, backoffSleeps duration factor (steps - 1)⟩
  | 1, _, _, _, hrun => backoffLoop_one_of_retry condition factor (hrun 0 (by omega))
  | steps + 2, duration, i, _, hrun => by
    have hshift : ∀ j, i + 1 + j = i + (j + 1) := fun j => by omega
    have h0 : condition i = (false, none) := hrun 0 (by omega)
    rw [backoffLoop_of_retry condition factor h0,
      backoffLoop_of_timeout hf (by omega) (fun j hj => by rw [hshift]; exact hrun _ (by omega))]
    simp [backoffSleeps_succ, nextDuration, hf]

end Loop

/-- **Every run of `wait.ExponentialBackoff`**, for a `Backoff` with steps and a non-zero
    factor: it stops at the first check that does not retry, or times out after all its
    steps. -/
theorem exponentialBackoff_cases (b : Backoff) (condition : Nat → Bool × Option String)
    (hf : b.factor ≠ 0) (hs : 0 < b.steps) :
    (∃ k < b.steps, condition k ≠ (false, none) ∧ (∀ j < k, condition j = (false, none)) ∧
      exponentialBackoff b condition =
        ⟨stopResult (condition k), k + 1, backoffSleeps b.duration b.factor k⟩) ∨
    ((∀ j < b.steps, condition j = (false, none)) ∧
      exponentialBackoff b condition =
        ⟨.timeout, b.steps, backoffSleeps b.duration b.factor (b.steps - 1)⟩) := by
  by_cases h : ∃ k, k < b.steps ∧ condition k ≠ (false, none)
  · classical
    obtain ⟨hk, hstop⟩ := Nat.find_spec h
    have hmin : ∀ j < Nat.find h, condition j = (false, none) := fun j hj =>
      not_and_not_right.1 (Nat.find_min h hj) (by omega)
    have hrun := @backoffLoop_of_stop condition b.factor hf (Nat.find h) b.duration b.steps 0 hk
      (by simpa using hstop) (by simpa using hmin)
    exact .inl ⟨Nat.find h, hk, hstop, hmin, by simpa using hrun⟩
  · push_neg at h
    exact .inr ⟨h, @backoffLoop_of_timeout condition b.factor hf b.steps b.duration 0 hs
      (by simpa using h)⟩

/-! ### The job -/

/-- What one `Get` of the pod answers: the pod, `NotFound`, or another error. -/
inductive GetAnswer
  | found
  | notFound
  | failed (err : String)
  deriving DecidableEq

/-- The job's condition on the answer of its `Get`: a found pod holds (its event is recorded
    first), `NotFound` retries, and any other error ends the loop with that error. -/
def podCondition : GetAnswer → Bool × Option String
  | .found => (true, none)
  | .notFound => (false, none)
  | .failed err => (false, some err)

@[simp] theorem podCondition_eq_retry (a : GetAnswer) :
    podCondition a = (false, none) ↔ a = .notFound := by
  cases a <;> simp [podCondition]

/-- What a run of the job did: the run of its loop, and the events it recorded.  The error the
    loop returns is only logged. -/
structure JobRun where
  wait : WaitRun
  events : Nat
  deriving DecidableEq

/-- The job that `delayedSchedulingGatedEvent` submits, against an API server whose answers to
    its `Get`s come in order.  Each check that finds the pod records one event. -/
def gatedEventJob (answers : Nat → GetAnswer) : JobRun :=
  let wait := exponentialBackoff ⟨2 * 1000000, 2, 15⟩ fun i => podCondition (answers i)
  ⟨wait, (List.range wait.checks).countP fun i => answers i = .found⟩

theorem countP_found_eq_zero {answers : Nat → GetAnswer} {n : Nat}
    (hrun : ∀ j < n, answers j = .notFound) :
    (List.range n).countP (fun i => answers i = .found) = 0 := by
  rw [List.countP_eq_zero]
  intro j hj
  simp [hrun j (List.mem_range.1 hj)]

theorem countP_found_of_stop {answers : Nat → GetAnswer} {k : Nat}
    (hrun : ∀ j < k, answers j = .notFound) :
    (List.range (k + 1)).countP (fun i => answers i = .found) =
      if answers k = .found then 1 else 0 := by
  rw [List.range_succ, List.countP_append, countP_found_eq_zero hrun]
  split_ifs with h <;> simp [h]

/-- **What the job does, for every answer of the API server.**  It makes one `Get` after
    another, sleeping 2 ms, 4 ms, … between them, while the answer is `NotFound`.  The first
    other answer within 15 checks ends the job: a found pod with one event and `nil`, an error
    with no event and that error.  After 15 `NotFound`s it ends with no event and
    `ErrWaitTimeout`. -/
theorem gatedEventJob_outcome (answers : Nat → GetAnswer) :
    (∃ k < 15, answers k ≠ .notFound ∧ (∀ j < k, answers j = .notFound) ∧
      gatedEventJob answers =
        ⟨⟨stopResult (podCondition (answers k)), k + 1, backoffSleeps 2000000 2 k⟩,
          if answers k = .found then 1 else 0⟩) ∨
    ((∀ k < 15, answers k = .notFound) ∧
      gatedEventJob answers = ⟨⟨.timeout, 15, backoffSleeps 2000000 2 14⟩, 0⟩) := by
  rcases exponentialBackoff_cases ⟨2 * 1000000, 2, 15⟩ (fun i => podCondition (answers i))
    (by decide) (by decide) with ⟨k, hk, hstop, hrun, heq⟩ | ⟨hall, heq⟩
  · have hrun' : ∀ j < k, answers j = .notFound := fun j hj => by simpa using hrun j hj
    refine .inl ⟨k, hk, by simpa using hstop, hrun', ?_⟩
    simp only [gatedEventJob, heq, countP_found_of_stop hrun']
  · have hall' : ∀ j < 15, answers j = .notFound := fun j hj => by simpa using hall j hj
    refine .inr ⟨hall', ?_⟩
    simp only [gatedEventJob, heq, countP_found_eq_zero hall']

/-- **How long the job sleeps.**  The sleeps before its `n`-th check sum to `2 ms · (2ⁿ⁻¹ - 1)`,
    at most 32.766 s, reached when the job runs all 15 checks: 14 sleeps, not the 15 that the
    comment `maxTime = 2e-3s * (2^15 - 1) = 65.534s` counts. -/
theorem gatedEventJob_sleep_total (answers : Nat → GetAnswer) :
    (gatedEventJob answers).wait.sleeps.sum =
        2000000 * (2 ^ ((gatedEventJob answers).wait.checks - 1) - 1) ∧
      (gatedEventJob answers).wait.sleeps.sum ≤ 32766000000 := by
  rcases exponentialBackoff_cases ⟨2 * 1000000, 2, 15⟩ (fun i => podCondition (answers i))
    (by decide) (by decide) with ⟨k, hk, -, -, heq⟩ | ⟨-, heq⟩
  · simp only [gatedEventJob, heq, sum_backoffSleeps_two, Nat.add_sub_cancel]
    have : 2 ^ k ≤ 2 ^ 14 := Nat.pow_le_pow_right (by decide) (by dsimp only at hk; omega)
    exact ⟨trivial, by omega⟩
  · simp only [gatedEventJob, heq, sum_backoffSleeps_two]
    decide

theorem gatedEventJob_events_le_one (answers : Nat → GetAnswer) :
    (gatedEventJob answers).events ≤ 1 := by
  rcases exponentialBackoff_cases ⟨2 * 1000000, 2, 15⟩ (fun i => podCondition (answers i))
    (by decide) (by decide) with ⟨k, -, -, hrun, heq⟩ | ⟨hall, heq⟩
  · simp only [gatedEventJob, heq, countP_found_of_stop fun j hj => by simpa using hrun j hj]
    split_ifs <;> decide
  · simp only [gatedEventJob, heq, countP_found_eq_zero fun j hj => by simpa using hall j hj]
    decide

/-! ### The worker pool -/

/-- A job of the worker pool, run against an API server that gives the `n`-th answer to the
    `n`-th `Get` of a namespace and name. -/
def GatedEventJob.run (job : GatedEventJob) (api : String → String → Nat → GetAnswer) : JobRun :=
  gatedEventJob (api job.namespace job.name)

/-- The events recorded once every job in the worker pool has run. -/
def Webhook.poolEvents (w : Webhook) (api : String → String → Nat → GetAnswer) : Nat :=
  (w.workerPool.map fun job => (job.run api).events).sum

/-- **Step lemma.**  One call of `Handle` adds at most one job to the pool, and only for a pod
    it counts in `GatedPods`. -/
theorem poolEvents_handle_le (u : Utils) (w : Webhook) (req : Except String Pod) (accepts : Bool)
    (api : String → String → Nat → GetAnswer) :
    (w.handle u req accepts).2.poolEvents api + w.gatedPods ≤
      w.poolEvents api + (w.handle u req accepts).2.gatedPods := by
  rw [Webhook.handle_snd]
  cases Webhook.gatedJob u req with
  | none => cases accepts <;> simp [Webhook.poolEvents]
  | some job =>
    have := gatedEventJob_events_le_one (api job.namespace job.name)
    cases accepts with
    | false => simp [Webhook.poolEvents]
    | true =>
      simp only [Webhook.poolEvents, Option.toList_some, if_true, List.map_append, List.sum_append,
        List.length_singleton, List.map_singleton, List.sum_singleton, GatedEventJob.run]
      omega

/-- **Events never outnumber the gated pods.**  Over any run of `Handle`, whatever the worker
    pool answers to `Submit` and the API server to the jobs' `Get`s, the jobs added to the
    pool record at most one event for each pod `GatedPods` counts. -/
theorem handle_run_events_le_gatedPods (u : Utils) (w : Webhook)
    (reqs : List (Except String Pod × Bool)) (api : String → String → Nat → GetAnswer) :
    (reqs.foldl (fun w r => (w.handle u r.1 r.2).2) w).poolEvents api + w.gatedPods ≤
      w.poolEvents api + (reqs.foldl (fun w r => (w.handle u r.1 r.2).2) w).gatedPods := by
  induction reqs generalizing w with
  | nil => simp
  | cons r reqs ih =>
    have hstep := poolEvents_handle_le u w r.1 r.2 api
    have hrest := ih (w.handle u r.1 r.2).2
    rw [List.foldl_cons]
    omega

end MultiarchTuning
