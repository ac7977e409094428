import Mathlib.Data.List.Induction
import Mergepay.Workers.Cycles

namespace Mergepay.Workers

open Cluster

variable {C : CycleConfig} {permits : Cluster → Action → Prop} {s s' : Cluster} {a : Action} {i j : String}
  {c c₁ c₂ : Cycle} {w w' : Worker} {t : Task}

-- The attempt is the last one of its task, which has failed for good.
def Attempt.Dead (C : CycleConfig) (a : Attempt) : Prop :=
  a.Final C ∧ a.result ≠ .ok ()

instance : DecidablePred <| Attempt.Dead C :=
  fun a => inferInstanceAs <| Decidable (a.Final C ∧ a.result ≠ .ok ())

def Cycle.attempt (C : CycleConfig) (c : Cycle) (a : Attempt) : Cycle :=
  { c with
    attempts := c.attempts ++ [a]
    running  := c.running.filter (·.1 ≠ a.task) ++ if a.Final C then [] else [(a.task, a.number + 1)]
    failed   := c.failed || decide (a.Dead C) }

theorem Worker.cycle_attempt (C : CycleConfig) (w : Worker) (c : Cycle) (a : Attempt) :
    (w.attempt C c a).cycle = some (c.attempt C a) := by
  rw [Worker.attempt]
  cases h : a.result with
  | ok _ => simp [Cycle.attempt, Attempt.Final, Attempt.Dead, h]
  | error category =>
    by_cases hf : category ≠ .transient ∨ a.number ≥ C.maxAttempts
    case pos =>
      have hf' : a.Final C := by
        rw [Attempt.Final, h]
        rintro ⟨⟩
        simpa using hf
      simp [Cycle.attempt, Attempt.Dead, h, hf, hf']
    case neg =>
      have hf' : ¬a.Final C := by
        simpa [Attempt.Final, h] using hf
      simp [Cycle.attempt, Attempt.Dead, hf, hf']

-- Until the lease of a cycle lapses, the lock is as the cycle has written it.
structure Cycle.Guards (c : Cycle) (s : Cluster) (i : String) : Prop where
  lease : c.lease.owner = i
  owner : c.lock.owner = i
  lock  : s.now < c.lock.expiresAt → s.lock = some c.lock

def Cluster.Guarded (s : Cluster) : Prop :=
  ∀ i c, (s.workers i).cycle = some c → c.Guards s i

theorem Cycle.Guards.mono (g : c₁.Guards s i) (hls : c₂.lease = c₁.lease) (hlk : c₂.lock = c₁.lock)
    (hn : s.now ≤ s'.now) (hl : s.now < c₁.lock.expiresAt → s.lock = some c₁.lock → s'.lock = some c₁.lock) : c₂.Guards s' i where
  lease := hls ▸ g.lease
  owner := hlk ▸ g.owner
  lock  := by
    rw [hlk]
    exact fun hn' => hl (by omega) (g.lock (by omega))

-- A step of one worker, by which the leases of other cycles are kept.
theorem Cluster.Guarded.set (g : s.Guarded) (s' : Cluster) (hn : s.now ≤ s'.now)
    (hl : ∀ j c, j ≠ i → (s.workers j).cycle = some c → s.now < c.lock.expiresAt → s.lock = some c.lock →
      s'.lock = some c.lock)
    (hi : ∀ c, w.cycle = some c → c.Guards (s'.set i w) i) (hw : s'.workers = s.workers) : (s'.set i w).Guarded := by
  intro j c hc
  by_cases hj : j = i
  case pos =>
    subst hj
    rw [set_self] at hc
    exact hi c hc
  case neg =>
    rw [set_of_ne hj, hw] at hc
    exact (g j c hc).mono rfl rfl hn (hl j c hj hc)

theorem Cluster.Guarded.step (g : s.Guarded) (h : Steps C s a s') : s'.Guarded := by
  -- No lease is in force where a worker finds the lock free.
  have free {c : Cycle} (hf : ∀ lock ∈ s.lock, lock.expiresAt ≤ s.now) (hn : s.now < c.lock.expiresAt)
      (hl : s.lock = some c.lock) : False :=
    Int.not_le.mpr hn (hf _ hl)
  cases h with
  | tick hn => exact fun j c hc => (g j c hc).mono rfl rfl hn fun _ hl => hl
  | skip    => exact g
  | lose hf => exact fun j c hc => (g j c hc).mono rfl rfl (Int.le_refl _) fun hn hl => (free hf hn hl).elim
  | @start i lock _ _ hn hf hl =>
    refine g.set { s with lock := some lock } (Int.le_refl _) (fun _ _ _ _ hn hl => (free hf hn hl).elim) ?_ rfl
    rintro c ⟨⟩
    exact ⟨rfl, hl ▸ rfl, fun _ => rfl⟩
  | @attempt i c task number result hc hr =>
    refine g.set s (Int.le_refl _) (fun _ _ _ _ _ hl => hl) (fun c' hc' => ?_) rfl
    cases ((s.workers i).cycle_attempt C c ⟨task, number, result⟩).symm.trans hc'
    exact (g i c hc).mono rfl rfl (Int.le_refl _) fun _ hl => hl
  | @proceed i c hc hb hr =>
    refine g.set s (Int.le_refl _) (fun _ _ _ _ _ hl => hl) ?_ rfl
    rintro _ ⟨⟩
    exact (g i c hc).mono rfl rfl (Int.le_refl _) fun _ hl => hl
  | @finish i c lock released clock hc hb hr hl =>
    refine g.set { s with lock } (Int.le_refl _) (fun j c' hj hc' _ hl' => ?_) (by rintro _ ⟨⟩) rfl
    -- The lock of another worker is not released.
    have ho : c'.lock.owner ≠ c.lease.owner := by
      rwa [(g i c hc).lease, (g j c' hc').owner]
    cases released with
    | true  => simp [hl, releaseWorkerLease, hl', ho]
    | false => exact hl.trans hl'
  | @crash i => exact g.set s (Int.le_refl _) (fun _ _ _ _ _ hl => hl) (by rintro _ ⟨⟩) rfl

theorem Cluster.Reachable.guarded (h : Reachable C permits s) : s.Guarded := by
  induction h with
  | init          => exact fun _ _ hc => by cases hc
  | step _ _ h hi => exact hi.step (step_cases h)

-- A cycle writes its lock once.
theorem Worker.Step.lock (h : Worker.Step C w w') (hc : w.cycle = some c₁) (hc' : w'.cycle = some c₂) :
    c₂.lock = c₁.lock := by
  cases h with
  | start hn => cases hn.symm.trans hc
  | attempt a hc₁ =>
    cases hc₁.symm.trans hc
    exact Option.some.inj ((w.cycle_attempt C _ a).symm.trans hc') ▸ rfl
  | proceed hc₁ =>
    cases hc₁.symm.trans hc
    exact Option.some.inj hc' ▸ rfl
  | finish | crash => cases hc'

theorem Worker.Step.alive (h : Worker.Step C w w') (ha : w'.crashed = false) : w.crashed = false := by
  cases h with
  | start | proceed | finish => exact ha
  | @attempt c a =>
    rw [Worker.attempt] at ha
    cases hr : a.result with
    | ok _      => simpa [hr] using ha
    | error cat => by_cases h : cat ≠ .transient ∨ a.number ≥ C.maxAttempts <;> simpa [hr, h] using ha
  | crash => cases ha

theorem Cluster.Guarded.unique (g : s.Guarded) (h₁ : (s.workers i).cycle = some c₁) (h₂ : (s.workers j).cycle = some c₂)
    (n₁ : s.now < c₁.lock.expiresAt) (n₂ : s.now < c₂.lock.expiresAt) : i = j := by
  have g₁ := g i c₁ h₁
  have g₂ := g j c₂ h₂
  have hl := Option.some.inj <| (g₁.lock n₁).symm.trans (g₂.lock n₂)
  rw [← g₁.owner, ← g₂.owner, hl]

-- Whatever the clocks of the workers show, at most one of them runs a cycle under a lease that has not lapsed. No other
-- worker takes the lock away until then.
theorem one_cycle (h : Reachable C permits s) (h₁ : (s.workers i).cycle = some c₁) (n₁ : s.now < c₁.lock.expiresAt) :
    (∀ j c₂, j ≠ i → (s.workers j).cycle = some c₂ → c₂.lock.expiresAt ≤ s.now) ∧ s.lock = some c₁.lock ∧
    ∀ a s', s.step C a = some s' → (s'.workers i).cycle.isSome → s'.lock = some c₁.lock ∨ c₁.lock.expiresAt ≤ s'.now := by
  refine ⟨fun j c₂ hj h₂ => ?_, (h.guarded i c₁ h₁).lock n₁, fun a s' h' hc => ?_⟩
  case refine_1 =>
    by_contra hn
    exact hj (h.guarded.unique h₂ h₁ (Int.not_le.mp hn) n₁)
  case refine_2 =>
    have ⟨c', hc'⟩ := Option.isSome_iff_exists.mp hc
    have hl : c'.lock = c₁.lock := by
      cases (step_cases h').worker i with
      | inl hw => exact congrArg Cycle.lock <| Option.some.inj <| hc'.symm.trans <| (congrArg Worker.cycle hw).trans h₁
      | inr hw => exact hw.lock h₁ hc'
    by_cases hn : s'.now < c'.lock.expiresAt
    case pos => exact .inl (hl ▸ ((h.guarded.step (step_cases h')) i c' hc').lock hn)
    case neg => exact .inr (hl ▸ Int.not_lt.mp hn)

theorem default_attempts : 0 < 3 := by
  decide

def CycleConfig.default : CycleConfig :=
  ⟨60000, 3, 3, default_attempts⟩

-- The worker `b` takes over when the lease of `a` has lapsed.
def relay : Cluster :=
  { ({} : Cluster).acquire .default "a" 0 (some 0) with now := 60001 }.acquire .default "b" 60001 (some 60002)

def relayedLock : Lock :=
  ⟨"b", 120001, 60001⟩

theorem one_cycle_relay :
    (∀ j c₂, j ≠ "b" → (relay.workers j).cycle = some c₂ → c₂.lock.expiresAt ≤ 60001) ∧ relay.lock = some relayedLock ∧
    ∀ a s', relay.step .default a = some s' → (s'.workers "b").cycle.isSome →
      s'.lock = some relayedLock ∨ 120001 ≤ s'.now :=
  @one_cycle _ _ _ "b" { lease := ⟨"b"⟩, lock := relayedLock }
    (.step (.step (.step (@Reachable.init .default fun _ _ => True) trivial (a := .acquire "a" 0 (some 0)) rfl) trivial
      (a := .tick 60001) rfl) trivial (a := .acquire "b" 60001 (some 60002)) rfl) rfl (by decide)

-- The clocks of the workers are that close to the clock of the database.
def withinDrift (drift : Int) (s : Cluster) : Action → Prop
  | .acquire _ clock _ => s.now - drift ≤ clock ∧ clock ≤ s.now + drift
  | _                  => True

def Lock.Timely (C : CycleConfig) (drift : Int) (lock : Lock) : Prop :=
  lock.updatedAt + C.leaseTimeoutMs - drift ≤ lock.expiresAt ∧ lock.expiresAt ≤ lock.updatedAt + C.leaseTimeoutMs + drift

structure Cluster.Timely (C : CycleConfig) (drift : Int) (s : Cluster) : Prop where
  lock   : ∀ l ∈ s.lock, l.Timely C drift
  cycles : ∀ i c, (s.workers i).cycle = some c → c.lock.Timely C drift

theorem Cluster.Timely.set {drift : Int} (g : s.Timely C drift) (s' : Cluster) (hl : ∀ l ∈ s'.lock, l.Timely C drift)
    (hi : ∀ c, w.cycle = some c → c.lock.Timely C drift) (hw : s'.workers = s.workers) : (s'.set i w).Timely C drift where
  lock   := hl
  cycles := by
    intro j c hc
    by_cases hj : j = i
    case pos =>
      subst hj
      rw [set_self] at hc
      exact hi c hc
    case neg =>
      rw [set_of_ne hj, hw] at hc
      exact g.cycles j c hc

theorem Cluster.Timely.step {drift : Int} (g : s.Timely C drift) (hp : withinDrift drift s a) (h : Steps C s a s') :
    s'.Timely C drift := by
  cases h with
  | tick | skip => exact ⟨g.lock, g.cycles⟩
  | lose =>
    refine ⟨?_, g.cycles⟩
    rintro l ⟨⟩
    simp only [withinDrift, Lock.Timely] at hp ⊢
    omega
  | @start i lock _ _ hn hf hl =>
    have ht : lock.Timely C drift := by
      simp only [withinDrift, Lock.Timely, hl] at hp ⊢
      omega
    exact g.set { s with lock := some lock } (by rintro _ ⟨⟩; exact ht) (by rintro _ ⟨⟩; exact ht) rfl
  | @attempt i c task number result hc hr =>
    refine g.set s g.lock (fun c' hc' => ?_) rfl
    cases ((s.workers i).cycle_attempt C c ⟨task, number, result⟩).symm.trans hc'
    exact g.cycles i c hc
  | @proceed i c hc hb hr => exact g.set s g.lock (by rintro _ ⟨⟩; exact g.cycles i c hc) rfl
  | @finish i c lock released clock hc hb hr hl =>
    refine g.set { s with lock } ?_ (by rintro _ ⟨⟩) rfl
    subst hl
    intro l h
    cases released with
    | true  => exact g.lock l (Option.mem_filter_iff.mp h).1
    | false => exact g.lock l h
  | @crash i => exact g.set s g.lock (by rintro _ ⟨⟩) rfl

theorem Cluster.Reachable.timely {drift : Int} (h : Reachable C (withinDrift drift) s) : s.Timely C drift := by
  induction h with
  | init           => exact ⟨by rintro _ ⟨⟩, fun _ _ hc => by cases hc⟩
  | step _ hp h hi => exact hi.step hp (step_cases h)

-- Where clocks drift by a bounded time, cycles that are young enough belong to one worker, and a lock that is old enough
-- is given to the next worker that asks for it, also if its owner has died.
theorem turns {drift : Int} (h : Reachable C (withinDrift drift) s) :
    (∀ i j c₁ c₂, (s.workers i).cycle = some c₁ → (s.workers j).cycle = some c₂ →
      s.now < c₁.lock.updatedAt + C.leaseTimeoutMs - drift → s.now < c₂.lock.updatedAt + C.leaseTimeoutMs - drift →
      i = j) ∧
    ∀ i clock startedAt, (s.workers i).crashed = false → (s.workers i).cycle = none →
      (∀ l ∈ s.lock, l.updatedAt + C.leaseTimeoutMs + drift ≤ s.now) →
      ∃ s', s.step C (.acquire i clock (some startedAt)) = some s' ∧
        ∃ c, (s'.workers i).cycle = some c ∧ s'.lock = some c.lock := by
  refine ⟨fun i j c₁ c₂ h₁ h₂ n₁ n₂ => ?_, fun i clock startedAt hc hn hl => ?_⟩
  case refine_1 =>
    have t₁ := (h.timely.cycles i c₁ h₁).1
    have t₂ := (h.timely.cycles j c₂ h₂).1
    exact h.guarded.unique h₁ h₂ (by omega) (by omega)
  case refine_2 =>
    have hf : ∀ lock ∈ s.lock, lock.expiresAt ≤ s.now := by
      intro l h'
      have := (h.timely.lock l h').2
      have := hl l h'
      omega
    refine ⟨s.acquire C i clock (some startedAt), by simp [Cluster.step, hc, hn], ?_⟩
    rw [acquire, acquire_of_free hf]
    exact ⟨_, congrArg Worker.cycle set_self, rfl⟩

-- The worker `a` has taken the lock, and its cycle is still young, or has lasted for too long.
def claimed : Cluster :=
  ({} : Cluster).acquire .default "a" 0 (some 0)

def stale : Cluster :=
  { claimed with now := 60001 }

theorem turns_relay :
    (∀ j c₂, (claimed.workers j).cycle = some c₂ → 0 < c₂.lock.updatedAt + 60000 - 0 → "a" = j) ∧
    ∃ s', stale.step .default (.acquire "b" 60001 (some 60002)) = some s' ∧
      ∃ c, (s'.workers "b").cycle = some c ∧ s'.lock = some c.lock := by
  have h₁ : Reachable .default (withinDrift 0) claimed :=
    .step .init ⟨by decide, by decide⟩ (a := .acquire "a" 0 (some 0)) rfl
  have h₂ : Reachable .default (withinDrift 0) stale := .step h₁ trivial (a := .tick 60001) rfl
  constructor
  case left  => exact fun j c₂ hc => (turns h₁).1 "a" j _ c₂ rfl hc (by decide)
  case right => exact (turns h₂).2 "b" 60001 60002 rfl rfl (by decide)

-- The attempts of one task in a cycle
def Cycle.of (c : Cycle) (t : Task) : List Attempt :=
  c.attempts.filter (·.task = t)

def Cycle.begun (c : Cycle) : List Task :=
  if c.batch = .main then recoveryTasks ++ mainTasks else recoveryTasks

def Cycle.Ended (C : CycleConfig) (c : Cycle) (t : Task) : Prop :=
  ∃ a ∈ (c.of t).getLast?, a.Final C

-- Attempts are made one after the other until one is the last, and no other task is begun before the recovery has ended.
structure Cycle.Orderly (C : CycleConfig) (c : Cycle) : Prop where
  begun    : ∀ a ∈ c.attempts, a.task ∈ c.begun
  numbered : ∀ t, (c.of t).map (·.number) = List.range' 1 (c.of t).length
  retried  : ∀ t, ∀ a ∈ (c.of t).dropLast, ¬a.Final C
  running  : ∀ t n, (t, n) ∈ c.running ↔ t ∈ c.begun ∧ ¬c.Ended C t ∧ n = (c.of t).length + 1
  recovery : c.batch = .main → ∀ t ∈ recoveryTasks, c.Ended C t
  ordered  : c.attempts.Pairwise fun a b => b.task ∈ recoveryTasks → a.task ∈ recoveryTasks
  failed   : c.failed = true ↔ ∃ a ∈ c.attempts, a.Dead C

theorem Cycle.of_attempt (c : Cycle) (a : Attempt) (t : Task) :
    (c.attempt C a).of t = if a.task = t then c.of t ++ [a] else c.of t := by
  by_cases h : a.task = t <;> simp [Cycle.of, Cycle.attempt, h]

theorem Cycle.ended_attempt {a : Attempt} :
    (c.attempt C a).Ended C t ↔ if a.task = t then a.Final C else c.Ended C t := by
  rw [Cycle.Ended, of_attempt]
  split <;> simp [Cycle.Ended]

theorem Cycle.begun_attempt (C : CycleConfig) (c : Cycle) (a : Attempt) : (c.attempt C a).begun = c.begun :=
  rfl

theorem Cycle.Orderly.attempt {a : Attempt} (o : c.Orderly C) (hr : (a.task, a.number) ∈ c.running) :
    (c.attempt C a).Orderly C := by
  have ⟨hb, he, hn⟩ := (o.running ..).mp hr
  constructor
  case begun =>
    intro b hb'
    cases List.mem_append.mp hb' with
    | inl h => exact o.begun b h
    | inr h => exact List.mem_singleton.mp h ▸ hb
  case numbered =>
    intro t
    rw [of_attempt]
    split
    case isTrue h =>
      subst h
      rw [List.map_append, o.numbered, List.length_append, List.length_singleton, List.range'_1_concat]
      simp [hn, Nat.add_comm]
    case isFalse => exact o.numbered t
  case retried =>
    intro t b hb'
    rw [of_attempt] at hb'
    split at hb'
    case isFalse => exact o.retried t b hb'
    case isTrue h =>
      subst h
      rw [List.dropLast_concat] at hb'
      -- The task was still running, so that its last attempt was not final either.
      cases hl : (c.of a.task).getLast? with
      | none =>
        rw [List.getLast?_eq_none_iff.mp hl] at hb'
        cases hb'
      | some l =>
        rw [← List.dropLast_append_getLast? l hl] at hb'
        cases List.mem_append.mp hb' with
        | inl h => exact o.retried _ b h
        | inr h => exact List.mem_singleton.mp h ▸ fun hf => he ⟨l, hl, hf⟩
  case running =>
    intro t n
    rw [ended_attempt, of_attempt, begun_attempt]
    by_cases h : a.task = t
    case pos =>
      subst h
      by_cases hf : a.Final C
      case pos => simp [Cycle.attempt, hf]
      case neg => simpa [Cycle.attempt, hf, hn] using fun _ => hb
    case neg => simpa [Cycle.attempt, h, Ne.symm h] using o.running t n
  case recovery =>
    intro hm t ht
    rw [ended_attempt]
    split
    case isTrue h  => exact absurd (h ▸ o.recovery hm t ht) he
    case isFalse   => exact o.recovery hm t ht
  case ordered =>
    refine List.pairwise_append.mpr ⟨o.ordered, List.pairwise_singleton .., fun b hb' a' ha' hr' => ?_⟩
    cases List.mem_singleton.mp ha'
    have hb' := o.begun b hb'
    rw [Cycle.begun] at hb'
    split at hb'
    case isTrue h  => exact absurd (o.recovery h a.task hr') he
    case isFalse   => exact hb'
  case failed =>
    simp [Cycle.attempt, o.failed, or_and_right, exists_or]

theorem Cycle.orderly_start (lease : WorkerLease) (lock : Lock) : Cycle.Orderly C { lease, lock } where
  begun    := by rintro _ ⟨⟩
  numbered := fun _ => rfl
  retried  := by rintro _ _ ⟨⟩
  running  := by
    intro t n
    simp [recoveryTasks, Cycle.begun, Ended, of, or_and_right]
  recovery := by rintro ⟨⟩
  ordered  := .nil
  failed   := by simp

theorem Cycle.Orderly.proceed (o : c.Orderly C) (hb : c.batch = .recovery) (hr : c.running = []) :
    Cycle.Orderly C { c with batch := .main, running := mainTasks.map (·, 1) } := by
  have hn t (ht : t ∈ recoveryTasks) : c.Ended C t := by
    by_contra he
    have := (o.running t _).mpr ⟨by simpa [Cycle.begun, hb] using ht, he, rfl⟩
    simp [hr] at this
  have hm t (ht : t ∈ mainTasks) : t ∉ recoveryTasks ∧ c.of t = [] := by
    have hr : t ∉ recoveryTasks := by
      revert t
      decide
    refine ⟨hr, List.filter_eq_nil_iff.mpr fun a ha h => hr ?_⟩
    have ha := o.begun a ha
    rwa [Cycle.begun, hb, of_decide_eq_true h] at ha
  constructor
  case begun    => exact fun a ha => List.mem_append_left _ (by simpa [Cycle.begun, hb] using o.begun a ha)
  case numbered => exact o.numbered
  case retried  => exact o.retried
  case recovery => exact fun _ => hn
  case ordered  => exact o.ordered
  case failed   => exact o.failed
  case running  =>
    intro t n
    change (t, n) ∈ mainTasks.map (·, 1) ↔ t ∈ recoveryTasks ++ mainTasks ∧ ¬c.Ended C t ∧ n = (c.of t).length + 1
    by_cases ht : t ∈ mainTasks
    case pos => simp [ht, hm t ht, Ended, eq_comm]
    case neg => simpa [ht] using fun ht' he => absurd (hn t ht') he

theorem Worker.Step.orderly (h : Worker.Step C w w') (o : ∀ c, w.cycle = some c → c.Orderly C) :
    ∀ c, w'.cycle = some c → c.Orderly C := by
  cases h with
  | start => exact fun c hc => Option.some.inj hc ▸ Cycle.orderly_start ..
  | attempt a hc hr =>
    intro c' hc'
    rw [w.cycle_attempt] at hc'
    exact Option.some.inj hc' ▸ (o _ hc).attempt hr
  | proceed hc hb hr => exact fun c' hc' => Option.some.inj hc' ▸ (o _ hc).proceed hb hr
  | finish | crash => exact fun _ hc => by cases hc

theorem Cluster.Reachable.orderly (h : Reachable C permits s) : ∀ c, (s.workers i).cycle = some c → c.Orderly C := by
  induction h with
  | init => exact fun _ hc => by cases hc
  | step _ _ h hi =>
    cases (step_cases h).worker i with
    | inl h => exact h ▸ hi
    | inr h => exact h.orderly hi

theorem Cycle.Orderly.length_le (o : c.Orderly C) (t : Task) : (c.of t).length ≤ C.maxAttempts := by
  have hn := o.numbered t
  have hr := o.retried t
  cases hl : c.of t using List.reverseRecOn with
  | nil => exact Nat.zero_le _
  | append_singleton l a =>
    cases l using List.reverseRecOn with
    | nil => exact C.attempts_pos
    | append_singleton l b =>
      -- The attempt before the last one was not final.
      have hb : ¬b.Final C := hr b (by simp [hl])
      have hk : b.number = l.length + 1 := by
        have := congrArg (·[l.length]?) hn
        simpa [hl, Nat.add_comm] using this
      simp only [Attempt.Final, Classical.not_imp, hk] at hb
      simp only [List.length_append, List.length_singleton]
      omega

theorem ended_of_finish (h : s.step C (.finish i clock released) = some s') (hc : (s.workers i).cycle = some c) :
    c.batch = .main ∧ c.running = [] := by
  cases step_cases h with
  | finish hc' hb hr =>
    cases hc.symm.trans hc'
    exact ⟨hb, hr⟩

-- Each finished cycle has brought all tasks to their ends, within the budget of their attempts.
theorem tasks_of_cycle (h : Reachable C permits s) (hc : (s.workers i).cycle = some c) :
    (∀ t, (c.of t).map (·.number) = List.range' 1 (c.of t).length ∧ (c.of t).length ≤ C.maxAttempts ∧
      ∀ a ∈ (c.of t).dropLast, a.result = .error .transient) ∧
    (c.attempts.Pairwise fun a b => b.task ∈ recoveryTasks → a.task ∈ recoveryTasks) ∧
    ∀ clock released s', s.step C (.finish i clock released) = some s' →
      (∀ t, c.Ended C t) ∧ ((s'.workers i).health.lastCycleOutcome = .failed ↔ ∃ a ∈ c.attempts, a.Dead C) := by
  have o := h.orderly c hc
  refine ⟨fun t => ⟨o.numbered t, o.length_le t, fun a ha => ?_⟩, o.ordered,
    fun clock released s' h' => ⟨fun t => ?_, ?_⟩⟩
  case refine_1 =>
    have hf := o.retried t a ha
    simp only [Attempt.Final, Classical.not_imp] at hf
    exact hf.1
  case refine_2 =>
    have ⟨hb, hr⟩ := ended_of_finish h' hc
    by_contra he
    have := (o.running t _).mpr ⟨by cases t <;> simp [Cycle.begun, hb, recoveryTasks, mainTasks], he, rfl⟩
    simp [hr] at this
  case refine_3 =>
    cases step_cases h' with
    | finish hc' =>
      cases hc.symm.trans hc'
      rw [set_self, ← o.failed, Worker.finish]
      cases c.failed <;> simp [WorkerHealth.recordCycleFailure, WorkerHealth.recordCycleSuccess]

-- A task of the recovery has to be tried again.
def retrying : Cluster :=
  let s := ({} : Cluster).acquire .default "a" 0 (some 0)
  s.set "a" <| (s.workers "a").attempt .default { lease := ⟨"a"⟩, lock := ⟨"a", 60000, 0⟩ }
    ⟨.recoverStaleSettlements, 1, .error .transient⟩

def retryingCycle : Cycle where
  lease    := ⟨"a"⟩
  lock     := ⟨"a", 60000, 0⟩
  running  := [(.recoverStaleAnchorSessions, 1), (.recoverStaleSettlements, 2)]
  attempts := [⟨.recoverStaleSettlements, 1, .error .transient⟩]

theorem reachable_retrying : Reachable .default (fun _ _ => True) retrying :=
  .step (.step .init trivial (a := .acquire "a" 0 (some 0)) rfl) trivial
    (a := .attempt "a" .recoverStaleSettlements (.error .transient)) rfl

theorem tasks_of_retryingCycle :
    (∀ t, (retryingCycle.of t).map (·.number) = List.range' 1 (retryingCycle.of t).length ∧
      (retryingCycle.of t).length ≤ 3 ∧ ∀ a ∈ (retryingCycle.of t).dropLast, a.result = .error .transient) ∧
    (retryingCycle.attempts.Pairwise fun a b => b.task ∈ recoveryTasks → a.task ∈ recoveryTasks) ∧
    ∀ clock released s', retrying.step .default (.finish "a" clock released) = some s' →
      (∀ t, retryingCycle.Ended .default t) ∧
        ((s'.workers "a").health.lastCycleOutcome = .failed ↔ ∃ a ∈ retryingCycle.attempts, a.Dead .default) :=
  tasks_of_cycle (c := retryingCycle) reachable_retrying rfl

def Failed (C : CycleConfig) (l : List Attempt) : Prop :=
  ∃ a ∈ l, a.Dead C

instance : DecidablePred <| Failed C :=
  fun l => inferInstanceAs <| Decidable (∃ a ∈ l, a.Dead C)

def Worker.attempts (w : Worker) : List Attempt :=
  w.past.flatten ++ (w.cycle.map (·.attempts)).getD []

-- What a worker says of itself is determined by the attempts it has made.
structure Worker.Reports (C : CycleConfig) (w : Worker) : Prop where
  completed    : w.health.cyclesCompleted = w.past.countP (¬Failed C ·)
  failed       : w.health.cyclesFailed = w.past.countP (Failed C ·)
  consecutive  : w.health.consecutiveFailures = (w.past.reverse.takeWhile (Failed C ·)).length
  tasks        : ∀ t, w.health.taskFailures t = w.attempts.countP fun a => a.task = t ∧ a.result ≠ .ok ()
  deadLettered : w.health.deadLetteredTasks = ((w.attempts.filter (·.Dead C)).map (·.task)).reverse.take 50

theorem Worker.past_attempt (C : CycleConfig) (w : Worker) (c : Cycle) (a : Attempt) :
    (w.attempt C c a).past = w.past := by
  rw [Worker.attempt]
  cases a.result with
  | ok _      => rfl
  | error cat => by_cases h : cat ≠ .transient ∨ a.number ≥ C.maxAttempts <;> simp [h]

theorem Worker.health_attempt (C : CycleConfig) (w : Worker) (c : Cycle) (a : Attempt) :
    (w.attempt C c a).health = { w.health with
      taskFailures      := fun t => w.health.taskFailures t + if a.task = t ∧ a.result ≠ .ok () then 1 else 0
      deadLetteredTasks := if a.Dead C then (a.task :: w.health.deadLetteredTasks).take 50
        else w.health.deadLetteredTasks } := by
  have hu (f : Task → Nat) : Function.update f a.task (f a.task + 1) = fun t => f t + if a.task = t then 1 else 0 := by
    funext t
    by_cases h : a.task = t
    case pos => simp [← h]
    case neg => simp [Function.update_of_ne (Ne.symm h), h]
  rw [Worker.attempt]
  cases h : a.result with
  | ok _ => simp [Attempt.Dead, h]
  | error category =>
    by_cases hf : category ≠ .transient ∨ a.number ≥ C.maxAttempts
    case pos =>
      have hd : a.Dead C := by
        refine ⟨?_, by simp [h]⟩
        rw [Attempt.Final, h]
        rintro ⟨⟩
        simpa using hf
      simp [hf, hd, WorkerHealth.recordTaskFailure, WorkerHealth.recordTaskDeadLetter, hu]
    case neg =>
      have hd : ¬a.Dead C := fun hd => hf (by simpa [Attempt.Final, h, or_iff_not_imp_left] using hd.1)
      simp [hf, hd, WorkerHealth.recordTaskFailure, hu]

theorem Worker.Reports.step (r : w.Reports C) (o : ∀ c, w.cycle = some c → c.Orderly C) (h : Worker.Step C w w')
    (ha : w'.crashed = false) : w'.Reports C := by
  cases h with
  | @start lease lock startedAt hn =>
    have ht : Worker.attempts { w with cycle := some { lease, lock }, health := w.health.recordCycleStart startedAt } =
        w.attempts := by
      simp [Worker.attempts, hn]
    exact ⟨r.completed, r.failed, r.consecutive, fun t => ht ▸ r.tasks t, ht ▸ r.deadLettered⟩
  | @attempt c a hc hr =>
    have ht : (w.attempt C c a).attempts = w.attempts ++ [a] := by
      simp [Worker.attempts, past_attempt, cycle_attempt, hc, Cycle.attempt]
    constructor <;> rw [health_attempt]
    case completed   => exact past_attempt C w c a ▸ r.completed
    case failed      => exact past_attempt C w c a ▸ r.failed
    case consecutive => exact past_attempt C w c a ▸ r.consecutive
    case tasks =>
      intro t
      simp only [ht, List.countP_append, List.countP_singleton, r.tasks t, decide_eq_true_eq]
    case deadLettered =>
      rw [ht, List.filter_append, List.map_append, List.reverse_append, r.deadLettered]
      by_cases hd : a.Dead C <;> simp [hd, List.take_take]
  | @proceed c hc hb hr =>
    have ht : Worker.attempts { w with cycle := some { c with batch := .main, running := mainTasks.map (·, 1) } } =
        w.attempts := by
      simp [Worker.attempts, hc]
    exact ⟨r.completed, r.failed, r.consecutive, fun t => ht ▸ r.tasks t, ht ▸ r.deadLettered⟩
  | @finish c clock hc hb hr =>
    have ht : (w.finish c clock).attempts = w.attempts := by
      simp [Worker.attempts, Worker.finish, hc]
    have hf : c.failed = true ↔ Failed C c.attempts := (o c hc).failed
    constructor
    case tasks =>
      intro t
      rw [ht, ← r.tasks t, Worker.finish]
      split <;> rfl
    case deadLettered =>
      rw [ht, ← r.deadLettered, Worker.finish]
      split <;> rfl
    all_goals
      simp only [Worker.finish, List.countP_append, List.countP_singleton, List.reverse_append, List.reverse_singleton,
        List.singleton_append, List.takeWhile_cons, ← hf, ← r.completed, ← r.failed]
      cases c.failed <;> simp [WorkerHealth.recordCycleFailure, WorkerHealth.recordCycleSuccess, r.consecutive]
  | crash => cases ha

-- The counters of each worker that is alive can be relied on.
theorem reports_of_worker (h : Reachable C permits s) (ha : (s.workers i).crashed = false) :
    (s.workers i).Reports C := by
  induction h with
  | init => exact ⟨rfl, rfl, rfl, fun _ => rfl, rfl⟩
  | step hr _ h hi =>
    cases (step_cases h).worker i with
    | inl h => exact h ▸ hi (h ▸ ha)
    | inr h => exact (hi (h.alive ha)).step (fun _ => hr.orderly _) h ha

theorem reports_of_retrying : (retrying.workers "a").Reports .default :=
  reports_of_worker reachable_retrying rfl

end Mergepay.Workers
