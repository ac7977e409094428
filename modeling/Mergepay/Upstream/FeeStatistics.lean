import Mathlib.Algebra.Order.Ring.Rat
import Mathlib.Data.List.Perm.Basic
import Mathlib.Tactic.Linarith
import Mathlib.Tactic.NormNum
import Mathlib.Tactic.Ring

-- src/services/network.ts, where the statistics are whatever has been made of a response
namespace Mergepay.Upstream

-- A call of `fetchFeeStats` on behalf of all callers that come before it is settled. It may send several requests, and
-- has landed for a moment before it is settled.
structure Refresh (σ ε : Type) where
  startedAt : Int
  landed    : Option (Int × Except ε σ) := none
  waiting   : List Int

structure FeeStatsCache (σ ε : Type) where
  cached  : Option (σ × ℚ)       := none
  refresh : Option (Refresh σ ε) := none

inductive FeeStatsEvent (σ ε : Type)
  | getFeeStats
  | fetched (result : Except ε σ)
  | settled
  | clearFeeStatsCache

inductive FeeStatsOutput (σ ε : Type)
  | started (now : Int)
  | fetched (startedAt landedAt : Int) (result : Except ε σ)
  | answered (calledAt answeredAt : Int) (result : Except ε σ)
  | cleared

variable {σ ε : Type}

namespace FeeStatsCache

-- What comes of an event, at a reading of the clock. The statistics are kept for a number of seconds.
def step (feeCacheTtl : ℚ) (now : Int) (c : FeeStatsCache σ ε) :
    FeeStatsEvent σ ε → Option (FeeStatsCache σ ε × List (FeeStatsOutput σ ε))
  | .getFeeStats =>
    match c.cached.filter (·.2 > (now : ℚ)), c.refresh with
    | some (stats, _), _ => some (c, [.answered now now (.ok stats)])
    | none, none         => some ({ c with refresh := some { startedAt := now, waiting := [now] } }, [.started now])
    | none, some refresh => some ({ c with refresh := some { refresh with waiting := refresh.waiting ++ [now] } }, [])
  | .fetched result =>
    match c.refresh with
    | some { startedAt, landed := none, waiting } =>
      let cached := match result with
        | .ok stats => some (stats, now + feeCacheTtl * 1000)
        | .error _  => c.cached
      some ({ cached, refresh := some { startedAt, landed := some (now, result), waiting } },
        [.fetched startedAt now result])
    | _                                           => none
  | .settled =>
    match c.refresh with
    | some { landed := some (_, result), waiting, .. } =>
      some ({ c with refresh := none }, waiting.map (.answered · now result))
    | _                                                => none
  | .clearFeeStatsCache => some ({ c with cached := none }, [.cleared])

-- What comes of some events, if the clock does not run backwards
inductive Run (feeCacheTtl : ℚ) :
    List (Int × FeeStatsEvent σ ε) → FeeStatsCache σ ε → List (FeeStatsOutput σ ε) → Prop
  | nil : Run feeCacheTtl [] {} []
  | snoc {events now event c c' outputs outputs'} : Run feeCacheTtl events c outputs →
    (∀ e ∈ events, e.1 ≤ now) → c.step feeCacheTtl now event = some (c', outputs') →
    Run feeCacheTtl (events ++ [(now, event)]) c' (outputs ++ outputs')

end FeeStatsCache

-- What is shared by the readers

def FeeStatsOutput.starts : FeeStatsOutput σ ε → Bool
  | .started _ => true
  | _          => false

def FeeStatsOutput.lands : FeeStatsOutput σ ε → Bool
  | .fetched _ _ _ => true
  | _              => false

-- What may be the reason for another refresh
def FeeStatsOutput.voids : FeeStatsOutput σ ε → Bool
  | .fetched _ _ (.error _) => true
  | .cleared                => true
  | _                       => false

namespace FeeStatsCache

variable {ttl : ℚ} {t : Int} {c c' : FeeStatsCache σ ε} {event : FeeStatsEvent σ ε}
  {events : List (Int × FeeStatsEvent σ ε)} {outputs outputs' : List (FeeStatsOutput σ ε)}

-- What an event can do to the cache
inductive Step (ttl : ℚ) (t : Int) (c : FeeStatsCache σ ε) :
    FeeStatsEvent σ ε → FeeStatsCache σ ε → List (FeeStatsOutput σ ε) → Prop
  | hit (stats : σ) (expiresAt : ℚ) : c.cached = some (stats, expiresAt) → t < expiresAt →
    Step ttl t c .getFeeStats c [.answered t t (.ok stats)]
  | start : (∀ e ∈ c.cached, e.2 ≤ t) → c.refresh = none →
    Step ttl t c .getFeeStats { c with refresh := some { startedAt := t, waiting := [t] } } [.started t]
  | join (r : Refresh σ ε) : c.refresh = some r →
    Step ttl t c .getFeeStats { c with refresh := some { r with waiting := r.waiting ++ [t] } } []
  | fetched (r : Refresh σ ε) (stats : σ) : c.refresh = some r → r.landed = none →
    Step ttl t c (.fetched (.ok stats))
      { cached := some (stats, t + ttl * 1000), refresh := some { r with landed := some (t, .ok stats) } }
      [.fetched r.startedAt t (.ok stats)]
  | failed (r : Refresh σ ε) (e : ε) : c.refresh = some r → r.landed = none →
    Step ttl t c (.fetched (.error e)) { c with refresh := some { r with landed := some (t, .error e) } }
      [.fetched r.startedAt t (.error e)]
  | settled (r : Refresh σ ε) (s : Int) (result : Except ε σ) : c.refresh = some r → r.landed = some (s, result) →
    Step ttl t c .settled { c with refresh := none } (r.waiting.map (.answered · t result))
  | cleared : Step ttl t c .clearFeeStatsCache { c with cached := none } [.cleared]

theorem step_cases (h : c.step ttl t event = some (c', outputs)) : Step ttl t c event c' outputs := by
  cases event with
  | getFeeStats        =>
    simp only [step] at h
    split at h
    case h_1 _ stats expiresAt hc =>
      cases h
      have ⟨hc, he⟩ := Option.filter_eq_some_iff.mp hc
      exact .hit stats expiresAt hc (of_decide_eq_true he)
    case h_2 hc hr =>
      cases h
      refine .start (fun e he => ?_) hr
      simpa using Option.filter_eq_none_iff.mp hc e he
    case h_3 r hc hr =>
      cases h
      exact .join r hr
  | fetched result     =>
    simp only [step] at h
    split at h
    case h_1 startedAt waiting hr =>
      cases h
      cases result with
      | ok stats => exact .fetched ⟨startedAt, none, waiting⟩ stats hr rfl
      | error e  => exact .failed ⟨startedAt, none, waiting⟩ e hr rfl
    case h_2 => contradiction
  | settled            =>
    simp only [step] at h
    split at h
    case h_1 startedAt s result waiting hr =>
      cases h
      exact .settled ⟨startedAt, some (s, result), waiting⟩ s result hr rfl
    case h_2 => contradiction
  | clearFeeStatsCache =>
    cases h
    exact .cleared

-- An answer is what a refresh has brought. Either the refresh was running when the caller came, or its statistics
-- were not too old.
def Answered (ttl : ℚ) (outputs : List (FeeStatsOutput σ ε)) (calledAt answeredAt : Int)
    (result : Except ε σ) : Prop :=
  ∃ startedAt landedAt, .fetched startedAt landedAt result ∈ outputs ∧
    (startedAt ≤ calledAt ∧ calledAt ≤ answeredAt ∧ landedAt ≤ answeredAt ∨
      answeredAt = calledAt ∧ landedAt ≤ calledAt ∧ calledAt < landedAt + ttl * 1000 ∧ ∃ stats, result = .ok stats)

-- The times in a cache have been read before.
structure Fresh (ttl : ℚ) (events : List (Int × FeeStatsEvent σ ε)) (c : FeeStatsCache σ ε)
    (outputs : List (FeeStatsOutput σ ε)) : Prop where
  cached   : ∀ stats expiresAt, c.cached = some (stats, expiresAt) →
    ∃ startedAt landedAt : Int, .fetched startedAt landedAt (.ok stats) ∈ outputs ∧ expiresAt = landedAt + ttl * 1000
  fetched  : ∀ startedAt landedAt result, .fetched startedAt landedAt result ∈ outputs → ∃ e ∈ events, e.1 = landedAt
  waiting  : ∀ r, c.refresh = some r → ∀ calledAt ∈ r.waiting, r.startedAt ≤ calledAt ∧ ∃ e ∈ events, e.1 = calledAt
  started  : ∀ r, c.refresh = some r → ∃ e ∈ events, e.1 = r.startedAt
  landed   : ∀ r landedAt result, c.refresh = some r → r.landed = some (landedAt, result) →
    .fetched r.startedAt landedAt result ∈ outputs
  answered : ∀ calledAt answeredAt result, .answered calledAt answeredAt result ∈ outputs →
    Answered ttl outputs calledAt answeredAt result

theorem Answered.mono {calledAt answeredAt : Int} {result : Except ε σ}
    (h : Answered ttl outputs calledAt answeredAt result) (hs : ∀ o ∈ outputs, o ∈ outputs') :
    Answered ttl outputs' calledAt answeredAt result := by
  obtain ⟨startedAt, landedAt, hf, h⟩ := h
  exact ⟨startedAt, landedAt, hs _ hf, h⟩

-- What is known of a cache stays known.
theorem Fresh.extend (hi : Fresh ttl events c outputs)
    (hf : ∀ startedAt landedAt result, .fetched startedAt landedAt result ∈ outputs' → landedAt = t)
    (ha : ∀ calledAt answeredAt result, .answered calledAt answeredAt result ∈ outputs' →
      Answered ttl (outputs ++ outputs') calledAt answeredAt result) :
    Fresh ttl (events ++ [(t, event)]) c (outputs ++ outputs') := by
  have old {s : Int} (hs : ∃ e ∈ events, e.1 = s) : ∃ e ∈ events ++ [(t, event)], e.1 = s := by
    obtain ⟨e, he, hs⟩ := hs
    exact ⟨e, List.mem_append_left _ he, hs⟩
  constructor
  case cached =>
    intro stats expiresAt hc
    obtain ⟨startedAt, landedAt, hm, he⟩ := hi.cached stats expiresAt hc
    exact ⟨startedAt, landedAt, List.mem_append_left _ hm, he⟩
  case fetched =>
    intro startedAt landedAt result hm
    rcases List.mem_append.mp hm with hm | hm
    case inl => exact old (hi.fetched startedAt landedAt result hm)
    case inr => exact ⟨(t, event), by simp, (hf startedAt landedAt result hm).symm⟩
  case waiting =>
    intro r hr calledAt hm
    exact ⟨(hi.waiting r hr calledAt hm).1, old (hi.waiting r hr calledAt hm).2⟩
  case started => exact fun r hr => old (hi.started r hr)
  case landed => exact fun r landedAt result hr hl => List.mem_append_left _ (hi.landed r landedAt result hr hl)
  case answered =>
    intro calledAt answeredAt result hm
    rcases List.mem_append.mp hm with hm | hm
    case inl => exact (hi.answered calledAt answeredAt result hm).mono fun _ => List.mem_append_left _
    case inr => exact ha calledAt answeredAt result hm

theorem Fresh.land {r : Refresh σ ε} {cached : Option (σ × ℚ)} {result : Except ε σ} (hi : Fresh ttl events c outputs)
    (hr : c.refresh = some r) (hc : ∀ stats expiresAt, cached = some (stats, expiresAt) →
      result = .ok stats ∧ expiresAt = t + ttl * 1000 ∨ c.cached = some (stats, expiresAt)) :
    Fresh ttl (events ++ [(t, event)]) { cached, refresh := some { r with landed := some (t, result) } }
      (outputs ++ [.fetched r.startedAt t result]) := by
  have hk : Fresh ttl (events ++ [(t, event)]) c (outputs ++ [.fetched r.startedAt t result]) :=
    hi.extend (fun _ _ _ h => by cases List.mem_singleton.mp h; rfl) (by simp)
  refine { hk with cached := ?_, waiting := ?_, started := ?_, landed := ?_ }
  case refine_1 =>
    intro stats expiresAt h
    rcases hc stats expiresAt h with ⟨hs, he⟩ | h
    case inl => exact ⟨r.startedAt, t, by simp [hs], he⟩
    case inr => exact hk.cached stats expiresAt h
  case refine_2 =>
    intro r' hr'
    cases hr'
    exact hk.waiting r hr
  case refine_3 =>
    intro r' hr'
    cases hr'
    exact hk.started r hr
  case refine_4 =>
    intro r' landedAt result' hr' hl
    cases hr'
    cases hl
    simp

theorem Fresh.step (hi : Fresh ttl events c outputs) (ht : ∀ e ∈ events, e.1 ≤ t) (h : Step ttl t c event c' outputs') :
    Fresh ttl (events ++ [(t, event)]) c' (outputs ++ outputs') := by
  have past {s : Int} (hs : ∃ e ∈ events, e.1 = s) : s ≤ t := by
    obtain ⟨e, he, rfl⟩ := hs
    exact ht e he
  have now : ∃ e ∈ events ++ [(t, event)], e.1 = t := ⟨(t, event), by simp, rfl⟩
  cases h with
  | hit stats expiresAt hc hlt =>
    obtain ⟨startedAt, landedAt, hm, he⟩ := hi.cached stats expiresAt hc
    refine hi.extend (by simp) fun calledAt answeredAt result ha => ?_
    cases List.mem_singleton.mp ha
    exact ⟨startedAt, landedAt, List.mem_append_left _ hm, .inr ⟨rfl, past (hi.fetched _ _ _ hm), he ▸ hlt, stats, rfl⟩⟩
  | start hc hr                =>
    refine { hi.extend (by simp) (by simp) with waiting := ?_, started := ?_, landed := ?_ }
    case refine_1 =>
      intro r hr calledAt hm
      cases hr
      cases List.mem_singleton.mp hm
      exact ⟨Int.le_refl _, now⟩
    case refine_2 =>
      intro r hr
      cases hr
      exact now
    case refine_3 =>
      intro r landedAt result hr hl
      cases hr
      cases hl
  | join r hr                  =>
    have hk : Fresh ttl (events ++ [(t, .getFeeStats)]) c (outputs ++ []) := hi.extend (by simp) (by simp)
    refine { hk with waiting := ?_, started := ?_, landed := ?_ }
    case refine_1 =>
      intro r' hr' calledAt hm
      cases hr'
      rcases List.mem_append.mp hm with hm | hm
      case inl => exact hk.waiting r hr calledAt hm
      case inr =>
        cases List.mem_singleton.mp hm
        exact ⟨past (hi.started r hr), now⟩
    case refine_2 =>
      intro r' hr'
      cases hr'
      exact hk.started r hr
    case refine_3 =>
      intro r' landedAt result hr' hl
      cases hr'
      exact hk.landed r landedAt result hr hl
  | fetched r stats hr _       =>
    refine hi.land hr fun stats' expiresAt h => ?_
    cases h
    exact .inl ⟨rfl, rfl⟩
  | failed r e hr _            => exact hi.land hr fun _ _ h => .inr h
  | settled r s result hr hl   =>
    have hm := hi.landed r s result hr hl
    refine { hi.extend (by simp) fun calledAt answeredAt result' ha => ?_ with
      waiting := by simp, started := by simp, landed := by simp }
    obtain ⟨calledAt, hw, ha⟩ := List.mem_map.mp ha
    cases ha
    obtain ⟨hs, hc⟩ := hi.waiting r hr calledAt hw
    exact ⟨r.startedAt, s, List.mem_append_left _ hm, .inl ⟨hs, past hc, past (hi.fetched _ _ _ hm)⟩⟩
  | cleared                    => exact { hi.extend (by simp) (by simp) with cached := by simp }

def waiting (c : FeeStatsCache σ ε) : List Int :=
  c.refresh.elim [] (·.waiting)

theorem countP_answered {p : FeeStatsOutput σ ε → Bool} {l : List Int} {result : Except ε σ}
    (hp : ∀ calledAt, p (.answered calledAt t result) = false) : (l.map (.answered · t result)).countP p = 0 := by
  rw [List.countP_map, List.countP_eq_zero]
  exact fun calledAt _ => by simp [hp]

-- A refresh is running.
def running (c : FeeStatsCache σ ε) : Nat :=
  if c.refresh.any (·.landed.isNone) then 1 else 0

theorem Step.running_eq (h : Step ttl t c event c' outputs) :
    c'.running + outputs.countP (·.lands) = c.running + outputs.countP (·.starts) := by
  cases h with
  | hit stats expiresAt hc hlt => simp [FeeStatsOutput.lands, FeeStatsOutput.starts]
  | start hc hr                => simp [running, hr, FeeStatsOutput.lands, FeeStatsOutput.starts]
  | join r hr                  => simp [running, hr]
  | fetched r stats hr hl      => simp [running, hr, hl, FeeStatsOutput.lands, FeeStatsOutput.starts]
  | failed r e hr hl           => simp [running, hr, hl, FeeStatsOutput.lands, FeeStatsOutput.starts]
  | settled r s result hr hl   =>
    rw [countP_answered fun _ => rfl, countP_answered fun _ => rfl]
    simp [running, hr, hl]
  | cleared                    => simp [running, FeeStatsOutput.lands, FeeStatsOutput.starts]

theorem starts_of_run (h : Run ttl events c outputs) :
    outputs.countP (·.starts) = outputs.countP (·.lands) + c.running := by
  induction h with
  | nil             => rfl
  | snoc _ _ hs hi =>
    have hr := (step_cases hs).running_eq
    rw [List.countP_append, List.countP_append]
    omega

-- The refreshes but those for which something else is the reason
def surplus (outputs : List (FeeStatsOutput σ ε)) : ℚ :=
  outputs.countP (·.starts) - outputs.countP (·.voids)

theorem surplus_append : surplus (outputs ++ outputs') = surplus outputs + surplus outputs' := by
  simp only [surplus, List.countP_append]
  push_cast
  ring

-- Each of so many refreshes has to wait until the statistics have expired. After the last one, another one needs a
-- reason, or has to wait as well.
structure Spaced (ttl : ℚ) (lo : Int) (c : FeeStatsCache σ ε) (n : ℚ) (last : Int) : Prop where
  past : (n - 1) * (ttl * 1000) ≤ last - lo
  next : c.running = 0 → n * (ttl * 1000) ≤ last - lo ∨
    ∃ stats expiresAt, c.cached = some (stats, expiresAt) ∧ last + ttl * 1000 ≤ expiresAt

-- There is one reason more.
theorem Spaced.voided {lo last : Int} {n : ℚ} (ht : 0 < ttl) (hi : Spaced ttl lo c n last) :
    Spaced ttl lo c' (n + -1) last := by
  rw [← sub_eq_add_neg]
  refine ⟨?_, fun _ => .inl hi.past⟩
  calc (n - 1 - 1) * (ttl * 1000) = (n - 1) * (ttl * 1000) - ttl * 1000 := by ring
    _ ≤ (n - 1) * (ttl * 1000) := by linarith
    _ ≤ last - lo := hi.past

theorem Spaced.step {lo last : Int} {n : ℚ} (ht : 0 < ttl) (hi : Spaced ttl lo c n last) (hl : last ≤ t)
    (h : Step ttl t c event c' outputs) :
    Spaced ttl lo c' (n + surplus outputs) last ∨ Spaced ttl lo c' (n + surplus outputs) t := by
  have ⟨past, next⟩ := hi
  have hl : (last : ℚ) ≤ t := by exact_mod_cast hl
  cases h with
  | hit stats expiresAt hc hlt =>
    have h₀ : surplus [(.answered t t (.ok stats) : FeeStatsOutput σ ε)] = 0 := by
      simp [surplus, FeeStatsOutput.starts, FeeStatsOutput.voids]
    rw [h₀, add_zero]
    exact .inl hi
  | start hc hr                =>
    have h₁ : surplus [(.started t : FeeStatsOutput σ ε)] = 1 := by
      simp [surplus, FeeStatsOutput.starts, FeeStatsOutput.voids]
    rw [h₁]
    refine .inr ⟨?_, fun h => by simp [running] at h⟩
    rw [add_sub_cancel_right]
    rcases next (by simp [running, hr]) with h | ⟨stats, expiresAt, hx, he⟩
    case inl => linarith
    case inr =>
      have hd : n * (ttl * 1000) = (n - 1) * (ttl * 1000) + ttl * 1000 := by ring
      have hx : expiresAt ≤ t := hc _ hx
      linarith
  | join r hr                  =>
    have h₀ : surplus ([] : List (FeeStatsOutput σ ε)) = 0 := by simp [surplus]
    rw [h₀, add_zero]
    exact .inl ⟨past, fun h => next (by simpa [running, hr] using h)⟩
  | fetched r stats hr hn      =>
    have h₀ : surplus [(.fetched r.startedAt t (.ok stats) : FeeStatsOutput σ ε)] = 0 := by
      simp [surplus, FeeStatsOutput.starts, FeeStatsOutput.voids]
    rw [h₀, add_zero]
    exact .inl ⟨past, fun _ => .inr ⟨stats, _, rfl, by linarith⟩⟩
  | failed r e hr hn           =>
    have h₁ : surplus [(.fetched r.startedAt t (.error e) : FeeStatsOutput σ ε)] = -1 := by
      simp [surplus, FeeStatsOutput.starts, FeeStatsOutput.voids]
    rw [h₁]
    exact .inl (hi.voided ht)
  | settled r s result hr hn   =>
    have h₀ : surplus (r.waiting.map (FeeStatsOutput.answered · t result)) = 0 := by
      rw [surplus, countP_answered fun _ => rfl, countP_answered fun _ => rfl]
      simp
    rw [h₀, add_zero]
    exact .inl ⟨past, fun _ => next (by simp [running, hr, hn])⟩
  | cleared                    =>
    have h₁ : surplus [(.cleared : FeeStatsOutput σ ε)] = -1 := by
      simp [surplus, FeeStatsOutput.starts, FeeStatsOutput.voids]
    rw [h₁]
    exact .inl (hi.voided ht)

theorem spaced_of_run {lo : Int} (hp : 0 < ttl) (h : Run ttl events c outputs) (hb : ∀ e ∈ events, lo ≤ e.1) :
    ∃ last, (last = lo ∨ ∃ e ∈ events, e.1 = last) ∧ Spaced ttl lo c (surplus outputs) last := by
  induction h with
  | nil                                     =>
    have h₀ : surplus ([] : List (FeeStatsOutput σ ε)) = 0 := by simp [surplus]
    rw [h₀]
    exact ⟨lo, .inl rfl, by linarith, fun _ => .inl (by simp)⟩
  | @snoc events t event _ _ _ _ _ ht hs hi =>
    have ⟨hb, hn⟩ := List.forall_mem_append.mp hb
    obtain ⟨last, hl, hi⟩ := hi hb
    have hlt : last ≤ t := by
      rcases hl with rfl | ⟨e, he, rfl⟩
      · exact hn (t, event) (by simp)
      · exact ht e he
    rw [surplus_append]
    rcases hi.step hp hlt (step_cases hs) with hi | hi
    case inl => exact ⟨last, hl.imp_right fun ⟨e, he, hx⟩ => ⟨e, List.mem_append_left _ he, hx⟩, hi⟩
    case inr => exact ⟨t, .inr ⟨(t, event), by simp, rfl⟩, hi⟩

-- Two callers share a refresh, a third one what is kept of it. For the fourth one, it has just become too old.
def sharedEvents : List (Int × FeeStatsEvent Nat String) :=
  [(0, .getFeeStats), (50, .getFeeStats), (400, .fetched (.ok 100)), (401, .settled), (30399, .getFeeStats),
    (30400, .getFeeStats)]

def sharedOutputs : List (FeeStatsOutput Nat String) :=
  [.started 0, .fetched 0 400 (.ok 100), .answered 0 401 (.ok 100), .answered 50 401 (.ok 100),
    .answered 30399 30399 (.ok 100), .started 30400]

theorem run_shared : Run 30 sharedEvents
    { cached := some (100, 30400), refresh := some { startedAt := 30400, waiting := [30400] } } sharedOutputs :=
  have h₀ : Run 30 [] {} ([] : List (FeeStatsOutput Nat String)) := .nil
  have h₁ := h₀.snoc (by simp) (show step 30 0 _ .getFeeStats = some _ from rfl)
  have h₂ := h₁.snoc (by simp) (show step 30 50 _ .getFeeStats = some _ from rfl)
  have h₃ := h₂.snoc (by simp) (show step 30 400 _ (.fetched (.ok 100)) =
    some ({ cached := some (100, 30400), refresh := some ⟨0, some (400, .ok 100), [0, 50]⟩ },
      [.fetched 0 400 (.ok 100)]) by norm_num [step])
  have h₄ := h₃.snoc (by simp) (show step 30 401 _ .settled = some _ from rfl)
  have h₅ := h₄.snoc (by simp) (show step 30 30399 _ .getFeeStats =
    some ({ cached := some (100, 30400) }, [.answered 30399 30399 (.ok 100)]) by norm_num [step, Option.filter])
  h₅.snoc (by simp) (show step 30 30400 _ .getFeeStats =
    some ({ cached := some (100, 30400), refresh := some ⟨30400, none, [30400]⟩ }, [.started 30400]) by
      norm_num [step, Option.filter])

-- However many ask, there is never more than one refresh at a time. Without failures, and unless the cache is cleared,
-- there is one for each period in which statistics are kept.
theorem few_refreshes {lo hi : Int} (hp : 0 < ttl) (h : Run ttl events c outputs)
    (hb : ∀ e ∈ events, lo ≤ e.1 ∧ e.1 ≤ hi) (hle : lo ≤ hi) :
    (outputs.countP (·.starts) = outputs.countP (·.lands) ∨
      outputs.countP (·.starts) = outputs.countP (·.lands) + 1) ∧
    (outputs.countP (·.starts) : ℚ) ≤ 1 + (hi - lo) / (ttl * 1000) + outputs.countP (·.voids) := by
  constructor
  case left =>
    rw [starts_of_run h, running]
    split
    case isTrue  => exact .inr rfl
    case isFalse => exact .inl rfl
  case right =>
    obtain ⟨last, hl, hs⟩ := spaced_of_run hp h fun e he => (hb e he).1
    have hlast : last ≤ hi := by
      rcases hl with rfl | ⟨e, he, rfl⟩
      · exact hle
      · exact (hb e he).2
    have hlast : (last : ℚ) ≤ hi := by exact_mod_cast hlast
    have hd : surplus outputs - 1 ≤ (hi - lo) / (ttl * 1000) := by
      rw [le_div_iff₀ (by linarith)]
      exact hs.past.trans (by linarith)
    rw [surplus] at hd
    linarith

-- The second refresh comes as early as possible.
theorem few_refreshes_shared : sharedOutputs.countP (·.starts) = 2 ∧
    (sharedOutputs.countP (·.starts) : ℚ) ≤ 1 + ((30400 : Int) - (0 : Int)) / (30 * 1000) + sharedOutputs.countP (·.voids) :=
  have hle : (0 : Int) ≤ 30400 := by decide
  ⟨rfl, (few_refreshes (by norm_num) run_shared (by simp [sharedEvents]) hle).2⟩

end FeeStatsCache

end Mergepay.Upstream
