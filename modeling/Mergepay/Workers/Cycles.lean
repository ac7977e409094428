import Mathlib.Data.Option.Basic
import Mathlib.Logic.Function.Basic
import Mergepay.Schema

namespace Mergepay.Workers

-- Rows of `worker_locks`, of which only one key is in use.
structure Lock where
  owner     : String
  expiresAt : Int
  updatedAt : Int

structure WorkerLease where
  owner : String

-- The reading `clock` is that of the worker, but `now` is the time of the database.
def acquireWorkerLease (ttlMs : Nat) (owner : String) (clock now : Int) (lock : Option Lock) :
    Option WorkerLease × Option Lock :=
  let expiresAt := clock + ttlMs
  let acquired := (some ⟨owner⟩, some ⟨owner, expiresAt, now⟩)
  match lock with
  | none      => acquired
  | some lock => if lock.expiresAt ≤ now then acquired else (none, some lock)

def releaseWorkerLease (lease : WorkerLease) (lock : Option Lock) : Option Lock :=
  lock.filter (·.owner ≠ lease.owner)

inductive Task
  | recoverStaleSettlements
  | recoverStaleAnchorSessions
  | processSubmittedSettlements
  | reconcileAnchors
  | reconcileWithdrawals
  | reconcilePendingSettlements
  | syncPendingTransactionStatuses
  | reconcileAllTreasuryBalances
  | expireInvites
  | deliverPendingWebhooks
  | expireStaleTreasuryProposals
  | cleanupChallenges
  deriving DecidableEq

def recoveryTasks : List Task :=
  [.recoverStaleSettlements, .recoverStaleAnchorSessions]

def mainTasks : List Task :=
  [.processSubmittedSettlements, .reconcileAnchors, .reconcileWithdrawals, .reconcilePendingSettlements,
    .syncPendingTransactionStatuses, .reconcileAllTreasuryBalances, .expireInvites, .deliverPendingWebhooks,
    .expireStaleTreasuryProposals, .cleanupChallenges]

structure CycleConfig where
  leaseTimeoutMs     : Nat
  maxAttempts        : Nat
  unhealthyThreshold : Nat
  attempts_pos       : 0 < maxAttempts

inductive WorkerCycleOutcome
  | neverRun
  | running
  | success
  | failed

structure WorkerHealth where
  lastCycleStartedAt   : Option Int         := none
  lastCycleCompletedAt : Option Int         := none
  lastCycleDurationMs  : Option Int         := none
  lastCycleOutcome     : WorkerCycleOutcome := .neverRun
  cyclesCompleted      : Nat                := 0
  cyclesFailed         : Nat                := 0
  consecutiveFailures  : Nat                := 0
  taskFailures         : Task → Nat         := fun _ => 0
  deadLetteredTasks    : List Task          := []

namespace WorkerHealth

variable (state : WorkerHealth)

def recordCycleStart (clock : Int) : WorkerHealth :=
  { state with lastCycleStartedAt := some clock, lastCycleOutcome := .running }

def recordCycleSuccess (clock : Int) : WorkerHealth :=
  { state with
    lastCycleCompletedAt := some clock
    lastCycleDurationMs  := state.lastCycleStartedAt.map (clock - ·)
    lastCycleOutcome     := .success
    cyclesCompleted      := state.cyclesCompleted + 1
    consecutiveFailures  := 0 }

def recordCycleFailure (clock : Int) : WorkerHealth :=
  { state with
    lastCycleCompletedAt := some clock
    lastCycleDurationMs  := state.lastCycleStartedAt.map (clock - ·)
    lastCycleOutcome     := .failed
    cyclesFailed         := state.cyclesFailed + 1
    consecutiveFailures  := state.consecutiveFailures + 1 }

def recordTaskFailure (task : Task) : WorkerHealth :=
  { state with taskFailures := Function.update state.taskFailures task (state.taskFailures task + 1) }

def recordTaskDeadLetter (task : Task) : WorkerHealth :=
  { state with deadLetteredTasks := (task :: state.deadLetteredTasks).take 50 }

def healthy (C : CycleConfig) : Bool :=
  state.consecutiveFailures < C.unhealthyThreshold

end WorkerHealth

-- An attempt of a task in some cycle
structure Attempt where
  task   : Task
  number : Nat
  result : Except JobFailureCategory Unit

-- The result is not followed by another attempt.
def Attempt.Final (C : CycleConfig) (a : Attempt) : Prop :=
  a.result = .error .transient → C.maxAttempts ≤ a.number

instance (C : CycleConfig) : DecidablePred <| Attempt.Final C :=
  fun a => inferInstanceAs <| Decidable (a.result = .error .transient → C.maxAttempts ≤ a.number)

inductive Batch
  | recovery
  | main
  deriving DecidableEq

-- The tasks of a batch run side by side. What the worker has written to the lock, and the attempts it has made are only
-- remembered.
structure Cycle where
  lease    : WorkerLease
  batch    : Batch              := .recovery
  running  : List (Task × Nat)  := recoveryTasks.map (·, 1)
  failed   : Bool               := false
  lock     : Lock
  attempts : List Attempt       := []

-- A process, which is known by its `WORKER_ID`. The attempts of its past cycles are only remembered.
structure Worker where
  cycle   : Option Cycle        := none
  health  : WorkerHealth        := {}
  crashed : Bool                := false
  past    : List (List Attempt) := []

structure Cluster where
  lock    : Option Lock     := none
  now     : Int             := 0
  workers : String → Worker := fun _ => {}

-- The step of a task through `withRetry` and `runCycleTask`
def Worker.attempt (C : CycleConfig) (w : Worker) (c : Cycle) (a : Attempt) : Worker :=
  let c : Cycle := { c with attempts := c.attempts ++ [a], running := c.running.filter (·.1 ≠ a.task) }
  match a.result with
  | .ok _           => { w with cycle := c }
  | .error category =>
    let health := w.health.recordTaskFailure a.task
    if category ≠ .transient ∨ a.number ≥ C.maxAttempts then
      { w with health := health.recordTaskDeadLetter a.task, cycle := some { c with failed := true } }
    else
      { w with health, cycle := some { c with running := c.running ++ [(a.task, a.number + 1)] } }

def Worker.finish (w : Worker) (c : Cycle) (clock : Int) : Worker :=
  { w with
    cycle  := none
    health := if c.failed then w.health.recordCycleFailure clock else w.health.recordCycleSuccess clock
    past   := w.past ++ [c.attempts] }

inductive Action
  | tick (now : Int)
  -- There is no cycle if the statement is never answered.
  | acquire (workerId : String) (clock : Int) (answeredAt : Option Int)
  | attempt (workerId : String) (task : Task) (result : Except JobFailureCategory Unit)
  | proceed (workerId : String)
  | finish (workerId : String) (clock : Int) (released : Bool)
  | crash (workerId : String)

namespace Cluster

def set (s : Cluster) (workerId : String) (w : Worker) : Cluster :=
  { s with workers := Function.update s.workers workerId w }

def acquire (C : CycleConfig) (s : Cluster) (workerId : String) (clock : Int) (answeredAt : Option Int) : Cluster :=
  let (lease, lock) := acquireWorkerLease C.leaseTimeoutMs workerId clock s.now s.lock
  let s := { s with lock }
  match lease, lock, answeredAt with
  | some lease, some lock, some startedAt =>
    let w := s.workers workerId
    s.set workerId { w with cycle := some { lease, lock }, health := w.health.recordCycleStart startedAt }
  | _, _, _ => s

-- The next step of one of the workers, if it can be made.
def step (C : CycleConfig) (s : Cluster) : Action → Option Cluster
  | .tick now => if s.now ≤ now then some { s with now } else none
  | .acquire workerId clock answeredAt =>
    let w := s.workers workerId
    if w.crashed ∨ w.cycle.isSome then none
    else some <| s.acquire C workerId clock answeredAt
  | .attempt workerId task result => do
    let w := s.workers workerId
    let c ← w.cycle
    let (_, number) ← c.running.find? (·.1 = task)
    some <| s.set workerId <| w.attempt C c { task, number, result }
  | .proceed workerId => do
    let w := s.workers workerId
    let c ← w.cycle
    guard (c.batch = .recovery ∧ c.running = [])
    some <| s.set workerId { w with cycle := some { c with batch := .main, running := mainTasks.map (·, 1) } }
  | .finish workerId clock released => do
    let w := s.workers workerId
    let c ← w.cycle
    guard (c.batch = .main ∧ c.running = [])
    let s := if released then { s with lock := releaseWorkerLease c.lease s.lock } else s
    some <| s.set workerId <| w.finish c clock
  | .crash workerId =>
    let w := s.workers workerId
    some <| s.set workerId { w with cycle := none, crashed := true }

inductive Reachable (C : CycleConfig) (permits : Cluster → Action → Prop) : Cluster → Prop
  | init : Reachable C permits {}
  | step : Reachable C permits s → permits s a → s.step C a = some s' → Reachable C permits s'

end Cluster

-- What a step can do
inductive Steps (C : CycleConfig) (s : Cluster) : Action → Cluster → Prop
  | tick : s.now ≤ now → Steps C s (.tick now) { s with now }
  | skip : s.lock = some lock → s.now < lock.expiresAt → Steps C s (.acquire i clock answeredAt) s
  | lose : (∀ lock ∈ s.lock, lock.expiresAt ≤ s.now) →
    Steps C s (.acquire i clock none) { s with lock := some ⟨i, clock + C.leaseTimeoutMs, s.now⟩ }
  | start : (s.workers i).cycle = none → (∀ lock ∈ s.lock, lock.expiresAt ≤ s.now) →
    lock = ⟨i, clock + C.leaseTimeoutMs, s.now⟩ → Steps C s (.acquire i clock (some startedAt))
      ({ s with lock := some lock }.set i { s.workers i with
        cycle := some { lease := ⟨i⟩, lock }, health := (s.workers i).health.recordCycleStart startedAt })
  | attempt : (s.workers i).cycle = some c → (task, number) ∈ c.running →
    Steps C s (.attempt i task result) (s.set i <| (s.workers i).attempt C c { task, number, result })
  | proceed : (s.workers i).cycle = some c → c.batch = .recovery → c.running = [] → Steps C s (.proceed i)
      (s.set i { s.workers i with cycle := some { c with batch := .main, running := mainTasks.map (·, 1) } })
  | finish : (s.workers i).cycle = some c → c.batch = .main → c.running = [] →
    lock = (if released then releaseWorkerLease c.lease s.lock else s.lock) → Steps C s (.finish i clock released)
      ({ s with lock }.set i <| (s.workers i).finish c clock)
  | crash : Steps C s (.crash i) (s.set i { s.workers i with cycle := none, crashed := true })

namespace Cluster

variable {C : CycleConfig} {s s' : Cluster} {a : Action} {i j : String} {w : Worker}

theorem set_self : (s.set i w).workers i = w :=
  Function.update_self ..

theorem set_of_ne (h : j ≠ i) : (s.set i w).workers j = s.workers j :=
  Function.update_of_ne h ..

theorem acquire_of_free (hf : ∀ lock ∈ s.lock, lock.expiresAt ≤ s.now) (clock : Int) :
    acquireWorkerLease C.leaseTimeoutMs i clock s.now s.lock =
      (some ⟨i⟩, some ⟨i, clock + C.leaseTimeoutMs, s.now⟩) := by
  cases h : s.lock with
  | none      => rfl
  | some lock => exact if_pos (hf lock h)

theorem steps_acquire (hn : (s.workers i).cycle = none) (clock : Int) (answeredAt : Option Int) :
    Steps C s (.acquire i clock answeredAt) (s.acquire C i clock answeredAt) := by
  by_cases hl : ∀ lock ∈ s.lock, lock.expiresAt ≤ s.now
  case pos =>
    rw [acquire, acquire_of_free hl]
    cases answeredAt with
    | none   => exact .lose hl
    | some _ => exact .start hn hl rfl
  case neg =>
    obtain ⟨lock, h, hlt⟩ : ∃ lock ∈ s.lock, ¬lock.expiresAt ≤ s.now := by
      simpa only [not_forall, exists_prop] using hl
    have he : acquireWorkerLease C.leaseTimeoutMs i clock s.now s.lock = (none, s.lock) := by
      rw [Option.mem_def.mp h]
      exact if_neg hlt
    rw [acquire, he]
    exact .skip h (Int.not_le.mp hlt)

theorem step_cases (h : s.step C a = some s') : Steps C s a s' := by
  cases a with
  | tick now =>
    simp only [step, Option.ite_none_right_eq_some, Option.some.injEq] at h
    exact h.2 ▸ .tick h.1
  | acquire i clock answeredAt =>
    simp only [step, Option.ite_none_left_eq_some, Option.some.injEq, not_or] at h
    exact h.2 ▸ steps_acquire (by simpa using h.1.2) clock answeredAt
  | attempt i task result =>
    obtain ⟨c, hc, ⟨_, number⟩, hf, hs⟩ := by
      simpa only [step, Option.bind_eq_bind, Option.bind_eq_some_iff] using h
    obtain rfl : _ = task := by simpa using List.find?_some hf
    exact Option.some.inj hs ▸ .attempt hc (List.mem_of_find?_eq_some hf)
  | proceed i =>
    obtain ⟨c, hc, _, hg, hs⟩ := by
      simpa only [step, Option.bind_eq_bind, Option.bind_eq_some_iff] using h
    obtain ⟨hb, hr⟩ := (Option.guard_eq_some' ..).mp hg
    exact Option.some.inj hs ▸ .proceed hc hb hr
  | finish i clock released =>
    obtain ⟨c, hc, _, hg, hs⟩ := by
      simpa only [step, Option.bind_eq_bind, Option.bind_eq_some_iff] using h
    obtain ⟨hb, hr⟩ := (Option.guard_eq_some' ..).mp hg
    cases hs
    cases released <;> exact .finish hc hb hr rfl
  | crash i => exact Option.some.inj h ▸ .crash

end Cluster

-- What a step is for the worker that makes it
inductive Worker.Step (C : CycleConfig) (w : Worker) : Worker → Prop
  | start : w.cycle = none →
    Step C w { w with cycle := some { lease, lock }, health := w.health.recordCycleStart startedAt }
  | attempt (a : Attempt) : w.cycle = some c → (a.task, a.number) ∈ c.running → Step C w (w.attempt C c a)
  | proceed : w.cycle = some c → c.batch = .recovery → c.running = [] →
    Step C w { w with cycle := some { c with batch := .main, running := mainTasks.map (·, 1) } }
  | finish : w.cycle = some c → c.batch = .main → c.running = [] → Step C w (w.finish c clock)
  | crash : Step C w { w with cycle := none, crashed := true }

theorem Steps.worker {C : CycleConfig} {s s' : Cluster} {a : Action} (h : Steps C s a s') (j : String) :
    s'.workers j = s.workers j ∨ Worker.Step C (s.workers j) (s'.workers j) := by
  have other {s i w} (hs : Worker.Step C (s.workers i) w) :
      (Cluster.set s i w).workers j = s.workers j ∨ Worker.Step C (s.workers j) ((s.set i w).workers j) := by
    by_cases hj : j = i
    case pos =>
      subst hj
      exact .inr (Cluster.set_self.symm ▸ hs)
    case neg => exact .inl (Cluster.set_of_ne hj)
  cases h with
  | tick | skip | lose => exact .inl rfl
  | start hn           => exact other (s := { s with lock := _ }) (.start hn)
  | attempt hc hr      => exact other (.attempt _ hc hr)
  | proceed hc hb hr   => exact other (.proceed hc hb hr)
  | finish hc hb hr    => exact other (s := { s with lock := _ }) (.finish hc hb hr)
  | crash              => exact other .crash

end Mergepay.Workers
