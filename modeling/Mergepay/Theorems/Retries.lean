import Mergepay.Upstream.Retries

namespace Mergepay.Upstream

open Retrying

variable {H : Host} {policy : RetryPolicy} {error : Thrown} {attempt : Nat} {random : ℚ} {now : Int} {d : Nat}

-- The longest wait of a policy
def RetryPolicy.ceiling (policy : RetryPolicy) : Nat :=
  max policy.initialDelayMs policy.maxDelayMs

-- The wait before the second attempt, doubled for each attempt after it, up to the ceiling
def RetryPolicy.curve (policy : RetryPolicy) (attempt : Nat) : Nat :=
  min (policy.initialDelayMs * 2 ^ (attempt - 1)) policy.ceiling

def RetryPolicy.ratio (policy : RetryPolicy) : ℚ :=
  max 0 (min 1 policy.jitterRatio)

-- Failures that another attempt may survive
inductive MayRetry (H : Host) (policy : RetryPolicy) (now : Int) (error : Thrown) : Prop
  | transient : classifyUpstreamFailure error ∈ [.timeout, .transport, .serverError] →
    upstreamStatusOf error ≠ some 501 → upstreamStatusOf error ≠ some 505 → MayRetry H policy now error
  | throttled : classifyUpstreamFailure error = .rateLimited → policy.retryRateLimited = true →
    (∀ ms ∈ retryAfterMs H error now, ms ≤ policy.maxDelayMs) → MayRetry H policy now error

-- The wait that a provider asks for, which is heard only if it limits the rate
def requestedMs (H : Host) (error : Thrown) (now : Int) : Nat :=
  if classifyUpstreamFailure error = .rateLimited then (retryAfterMs H error now).getD 0 else 0

-- The wait is on the curve, less the jitter, but it does not end before the time that was asked for.
structure Paced (H : Host) (policy : RetryPolicy) (now : Int) (error : Thrown) (attempt d : Nat) : Prop where
  curve     : d ≤ max (policy.curve attempt) (requestedMs H error now)
  jitter    : policy.curve attempt * (1 - policy.ratio) < d + 1
  requested : requestedMs H error now ≤ d
  ceiling   : d ≤ policy.ceiling

theorem roundDelay_le {x : ℚ} {n : Nat} (h : x ≤ n) : roundDelay x ≤ n := by
  have hf : ⌊x + 1 / 2⌋ ≤ n := by
    have : ⌊x + 1 / 2⌋ < n + 1 := Int.floor_lt.mpr (by push_cast; linarith)
    omega
  exact Int.toNat_le.mpr hf

theorem lt_roundDelay (x : ℚ) : x < roundDelay x + 1 := by
  have h := Int.lt_floor_add_one (x + 1 / 2)
  have hn : (⌊x + 1 / 2⌋ : ℚ) ≤ roundDelay x := by
    exact_mod_cast Int.self_le_toNat _
  linarith

theorem backoffDelayMs_eq (ha : 1 ≤ attempt) : backoffDelayMs (attempt + 1) policy random =
    if policy.ratio ≤ 0 then roundDelay (policy.curve attempt)
    else roundDelay (policy.curve attempt - policy.curve attempt * policy.ratio * random) := by
  have hc : (policy.curve attempt : ℚ) = min (policy.initialDelayMs * max 1 2 ^ (attempt + 1 - 2))
      (max policy.initialDelayMs policy.maxDelayMs : Nat) := by
    rw [RetryPolicy.curve, RetryPolicy.ceiling, show attempt + 1 - 2 = attempt - 1 by omega]
    push_cast
    norm_num
  rw [backoffDelayMs, calculateBackoffDelay, if_neg (by omega), hc]
  simp [RetryPolicy.ratio]

theorem RetryPolicy.curve_le_ceiling : policy.curve attempt ≤ policy.ceiling :=
  min_le_right ..

theorem backoffDelayMs_bounds (policy : RetryPolicy) (h₀ : 0 ≤ random) (h₁ : random ≤ 1) (ha : 1 ≤ attempt) :
    backoffDelayMs (attempt + 1) policy random ≤ policy.curve attempt ∧
      policy.curve attempt * (1 - policy.ratio) < backoffDelayMs (attempt + 1) policy random + 1 := by
  have hr : 0 ≤ policy.ratio := le_max_left ..
  have hk : (0 : ℚ) ≤ policy.curve attempt := Nat.cast_nonneg _
  rw [backoffDelayMs_eq ha]
  split
  case isTrue h =>
    have h₀ : policy.ratio = 0 := le_antisymm h hr
    exact ⟨roundDelay_le le_rfl, by simpa [h₀] using lt_roundDelay (policy.curve attempt)⟩
  case isFalse =>
    have hj : 0 ≤ policy.curve attempt * policy.ratio * random := by positivity
    have hj' : policy.curve attempt * policy.ratio * random ≤ policy.curve attempt * policy.ratio :=
      mul_le_of_le_one_right (mul_nonneg hk hr) h₁
    refine ⟨roundDelay_le (by linarith), ?_⟩
    have := lt_roundDelay (policy.curve attempt - policy.curve attempt * policy.ratio * random)
    linarith

-- Nothing has been asked for.
theorem Paced.of_backoff (h₀ : 0 ≤ random) (h₁ : random ≤ 1) (ha : 1 ≤ attempt) (hq : requestedMs H error now = 0) :
    Paced H policy now error attempt (backoffDelayMs (attempt + 1) policy random) := by
  have ⟨hc, hj⟩ := backoffDelayMs_bounds policy h₀ h₁ ha
  constructor
  case curve     => exact hc.trans (le_max_left ..)
  case jitter    => exact hj
  case requested => simp [hq]
  case ceiling   => exact hc.trans RetryPolicy.curve_le_ceiling

theorem Paced.of_max (h₀ : 0 ≤ random) (h₁ : random ≤ 1) (ha : 1 ≤ attempt)
    (hl : requestedMs H error now ≤ policy.maxDelayMs) : Paced H policy now error attempt
      (max (backoffDelayMs (attempt + 1) policy random) (requestedMs H error now)) := by
  have ⟨hc, hj⟩ := backoffDelayMs_bounds policy h₀ h₁ ha
  constructor
  case curve     => exact max_le_max hc le_rfl
  case jitter    =>
    have hm := le_max_left (backoffDelayMs (attempt + 1) policy random : ℚ) (requestedMs H error now)
    exact lt_of_lt_of_le hj (by push_cast; linarith)
  case requested => exact le_max_right ..
  case ceiling   => exact max_le (hc.trans RetryPolicy.curve_le_ceiling) (hl.trans (le_max_right ..))

theorem mayRetry_of_rateLimited (hk : classifyUpstreamFailure error = .rateLimited) : MayRetry H policy now error ↔
    policy.retryRateLimited = true ∧ ∀ ms ∈ retryAfterMs H error now, ms ≤ policy.maxDelayMs where
  mp
    | .transient h _ _    => by simp [hk] at h
    | .throttled _ h₁ h₂ => ⟨h₁, h₂⟩
  mpr h := .throttled hk h.1 h.2

theorem mayRetry_of_ne_rateLimited (hk : classifyUpstreamFailure error ≠ .rateLimited) : MayRetry H policy now error ↔
    isRetryableFailure (classifyUpstreamFailure error) = true ∧
      upstreamStatusOf error ∉ nonRetryableServerStatuses.map some where
  mp
    | .transient h h₁ h₂ => ⟨decide_eq_true h, by simp [nonRetryableServerStatuses, h₁, h₂]⟩
    | .throttled h _ _    => absurd h hk
  mpr h := by
    have hn := h.2
    simp only [nonRetryableServerStatuses, List.map_cons, List.map_nil, List.mem_cons, List.not_mem_nil, or_false,
      not_or] at hn
    exact .transient (of_decide_eq_true h.1) hn.1 hn.2

-- When an attempt is followed by another one, and after which time
theorem decideRetry_spec (H : Host) (error : Thrown) (policy : RetryPolicy) (now : Int) (h₀ : 0 ≤ random)
    (h₁ : random ≤ 1) (ha : 1 ≤ attempt) :
    (decideRetry H error attempt policy random now = none ↔
      policy.maxAttempts ≤ attempt ∨ ¬MayRetry H policy now error) ∧
    ∀ d, decideRetry H error attempt policy random now = some d → Paced H policy now error attempt d := by
  rw [decideRetry]
  by_cases hm : attempt ≥ policy.maxAttempts
  case pos => simp [hm]
  case neg =>
    simp only [hm, if_false, false_or]
    by_cases hk : classifyUpstreamFailure error = .rateLimited
    case neg =>
      rw [if_neg hk, mayRetry_of_ne_rateLimited hk]
      by_cases hr : isRetryableFailure (classifyUpstreamFailure error) = true
      case neg => simp [hr]
      case pos =>
        by_cases hs : upstreamStatusOf error ∈ nonRetryableServerStatuses.map some
        case pos => simp [hr, hs]
        case neg =>
          simp only [hr, hs, not_true, if_false, not_false_iff, and_self, reduceCtorEq]
          exact ⟨trivial, by rintro d ⟨⟩; exact .of_backoff h₀ h₁ ha (if_neg hk)⟩
    case pos =>
      rw [if_pos hk, mayRetry_of_rateLimited hk]
      by_cases ho : policy.retryRateLimited = true
      case neg => simp [ho]
      case pos =>
        have hq : requestedMs H error now = (retryAfterMs H error now).getD 0 := if_pos hk
        cases hr : retryAfterMs H error now with
        | none =>
          simp only [ho, not_true, if_false]
          exact ⟨by simp, by rintro d ⟨⟩; exact .of_backoff h₀ h₁ ha (by rw [hq, hr]; rfl)⟩
        | some requested =>
          have hq : requestedMs H error now = requested := by rw [hq, hr]; rfl
          by_cases hl : requested > policy.maxDelayMs
          case pos => simp [ho, hl]
          case neg =>
            simp only [ho, hl, not_true, if_false]
            refine ⟨by simpa using hl, ?_⟩
            rintro d ⟨⟩
            rw [← hq]
            exact .of_max h₀ h₁ ha (hq ▸ Nat.not_lt.mp hl)

section

variable {α : Type} (H : Host) (R : Readings) (options : RetryOptions) (fn : Nat → Attempt α)

def settled (attempt : Nat) : Except Thrown α :=
  withTimeout options.operation options.timeoutMs (fn attempt)

-- The error is the answer that the caller waits for.
def RetryOptions.Expects (error : Thrown) : Prop :=
  options.isExpected (unwrapUpstreamError error) = true

-- What is sent, what is waited for, and what is thrown at last
structure Sent (r : Report RetryFailure α Nat) : Prop where
  budget  : 1 ≤ r.attempts ∧ r.attempts ≤ options.policy.maxAttempts
  retried : ∀ n, 1 ≤ n → n < r.attempts → ∃ error d, settled options fn n = .error error ∧
    ¬options.Expects error ∧ MayRetry H options.policy (R.now n) error ∧
    r.waits[n - 1]? = some d ∧ Paced H options.policy (R.now n) error n d
  ok      : ∀ value, settled options fn r.attempts = .ok value ↔ r.outcome = .ok value
  failed  : ∀ error, settled options fn r.attempts = .error error →
    (options.Expects error ∧ r.outcome = .error (.expected (unwrapUpstreamError error))) ∨
    (¬options.Expects error ∧
      (r.attempts = options.policy.maxAttempts ∨ ¬MayRetry H options.policy (R.now r.attempts) error) ∧
      r.outcome = .error (.upstream <|
        toUpstreamError H error options.operation options.policy.maxAttempts (R.now r.attempts)))
  total   : r.waits.sum ≤ (r.attempts - 1) * options.policy.ceiling

end

variable {α : Type} {R : Readings} {options : RetryOptions} {fn : Nat → Attempt α}

-- Reads are repeated just as long as it may help, within their budgets.
theorem sent_withRetry (H : Host) (R : Readings) (options : RetryOptions) (fn : Nat → Attempt α)
    (hr : ∀ n, 0 ≤ R.random n ∧ R.random n ≤ 1) : Sent H R options fn (withRetry H R options fn) := by
  let next (error : Thrown) (n : Nat) : Option Nat :=
    if options.isExpected (unwrapUpstreamError error) then none
    else decideRetry H error n options.policy (R.random n) (R.now n)
  have h : (retry options.policy.maxAttempts (settled options fn) next).Follows _ _ _ _ :=
    follows_retry _ _ options.policy.attempts_pos
  -- What it means that an attempt is retried
  have hn {n d} (hn : 1 ≤ n) (h : Retried (settled options fn) next n d) : ∃ error,
      settled options fn n = .error error ∧ ¬options.Expects error ∧ n < options.policy.maxAttempts ∧
      MayRetry H options.policy (R.now n) error ∧ Paced H options.policy (R.now n) error n d := by
    obtain ⟨error, he, hd⟩ := h
    simp only [next, Option.ite_none_left_eq_some] at hd
    have ⟨hi, hp⟩ := decideRetry_spec H error options.policy (R.now n) (hr n).1 (hr n).2 hn
    have ⟨hlt, hm⟩ : n < options.policy.maxAttempts ∧ MayRetry H options.policy (R.now n) error := by
      by_contra hc
      rw [hi.mpr ((not_and_or.mp hc).imp_left Nat.not_lt.mp)] at hd
      cases hd.2
    exact ⟨error, he, hd.1, hlt, hm, hp d hd.2⟩
  have may {n error} (h₁ : 1 ≤ n) (hlt : n < options.policy.maxAttempts) (he : settled options fn n = .error error)
      (hx : ¬options.Expects error) (hm : MayRetry H options.policy (R.now n) error) :
      ∃ d, Retried (settled options fn) next n d := by
    have ⟨hi, _⟩ := decideRetry_spec H error options.policy (R.now n) (hr n).1 (hr n).2 h₁
    have ⟨d, hd⟩ := Option.ne_none_iff_exists'.mp fun hd => (hi.mp hd).elim (fun h => by omega) (· hm)
    exact ⟨d, error, he, (if_neg hx).trans hd⟩
  have out {o : Except Thrown α} (ho : settled options fn (withRetry H R options fn).attempts = o) :
      (withRetry H R options fn).outcome = o.mapError fun error =>
        if options.isExpected (unwrapUpstreamError error) then .expected (unwrapUpstreamError error)
        else .upstream <| toUpstreamError H error options.operation options.policy.maxAttempts
          (R.now (withRetry H R options fn).attempts) :=
    congrArg (Except.mapError _) (h.outcome.symm.trans ho)
  constructor
  case budget => exact h.within
  case retried =>
    intro n h₁ h₂
    have hl := h.length
    have hi : n - 1 < (withRetry H R options fn).waits.length := by
      simp only [withRetry] at h₂ ⊢
      change n < (retry options.policy.maxAttempts (settled options fn) next).attempts at h₂
      change n - 1 < (retry options.policy.maxAttempts (settled options fn) next).waits.length
      omega
    have hd := h.retried (n - 1) _ (List.getElem?_eq_getElem hi)
    rw [Nat.add_sub_cancel' h₁] at hd
    obtain ⟨error, he, hx, _, hm, hp⟩ := hn h₁ hd
    exact ⟨error, _, he, hx, hm, List.getElem?_eq_getElem hi, hp⟩
  case ok =>
    intro value
    cases ho : settled options fn (withRetry H R options fn).attempts <;> simp [out ho, Except.mapError]
  case failed =>
    intro error he
    have ho := out he
    by_cases hx : options.Expects error
    case pos => exact .inl ⟨hx, ho.trans <| congrArg Except.error (if_pos hx)⟩
    case neg =>
      refine .inr ⟨hx, ?_, ho.trans <| congrArg Except.error (if_neg hx)⟩
      by_contra hc
      push Not at hc
      have hw := h.within
      exact hc.1 <| h.ended <| may hw.1 (Nat.lt_of_le_of_ne hw.2 hc.1) he hx hc.2
  case total =>
    refine h.sum_le fun n d h₁ hd => ?_
    have ⟨_, _, _, _, _, hp⟩ := hn h₁ hd
    exact hp.ceiling

theorem secondTry_attempts : 0 < 3 := by
  decide

-- A read that is answered after its first attempt has timed out
def secondTry : RetryOptions where
  operation := "Horizon.feeStats"
  timeoutMs := 5000
  policy    :=
    { maxAttempts := 3, initialDelayMs := 200, maxDelayMs := 2000, jitterRatio := 1 / 4,
      attempts_pos := secondTry_attempts }

theorem sent_secondTry :
    Sent ⟨fun _ => none⟩ ⟨fun n => n, fun _ => 1 / 2⟩ secondTry (fun n => if n = 1 then .late else .resolved "fees")
      (withRetry ⟨fun _ => none⟩ ⟨fun n => n, fun _ => 1 / 2⟩ secondTry
        fun n => if n = 1 then .late else .resolved "fees") :=
  sent_withRetry ⟨fun _ => none⟩ ⟨fun n => n, fun _ => 1 / 2⟩ secondTry
    (fun n => if n = 1 then .late else .resolved "fees") fun _ => by norm_num

-- An answer by which a request is refused, in the form that the SDK, `fetch` or an `AppError` gives to it
structure Refusal (e : ErrorFields) (n : Int) : Prop where
  status : e.responseStatus.orElse e.status = .number n
  mirror : e.statusCode = .absent ∨ e.statusCode = .number n
  range  : 400 ≤ n ∧ n < 500 ∧ n ≠ 408 ∧ n ≠ 429
  name   : e.name ≠ some "AbortError"

variable {e : ErrorFields} {n : Int} {cause : Thrown}

theorem Refusal.withTimeout_eq (h : Refusal e n) (operation : String) (timeoutMs : Nat) :
    withTimeout operation timeoutMs (.rejected (.object e cause) : Attempt α) = .error (.object e cause) := by
  have hs : e.response.isSome ∨ e.status.isPresent := by
    have hs := h.status
    by_contra hn
    simp only [not_or, Bool.not_eq_true, Option.isSome_eq_false_iff, Option.isNone_iff_eq_none] at hn
    cases ht : e.status <;> simp [ErrorFields.responseStatus, hn.1, ht, Field.orElse, Field.isPresent] at hs hn
  simp [withTimeout, h.name, hs]

theorem Refusal.statusOf_eq (h : Refusal e n) : statusOf (.object e cause) = some n := by
  have hs : e.responseStatus.orElse (e.status.orElse e.statusCode) = .number n := by
    have hs := h.status
    cases hr : e.responseStatus <;> cases ht : e.status <;> simp_all [Field.orElse]
  simp [statusOf, Thrown.fields?, hs, Field.number?]

theorem Refusal.decideRetry_eq (h : Refusal e n) :
    decideRetry H (.object e cause) attempt policy random now = none := by
  have hk : classifyUpstreamFailure (.object e cause) = .clientError := by
    have ⟨h₁, h₂, h₃, h₄⟩ := h.range
    simp [classifyUpstreamFailure, unwrapUpstreamError, Thrown.isTransport, h.statusOf_eq, kindOfStatus, h₁, h₃, h₄]
    omega
  simp [decideRetry, hk, isRetryableFailure]

theorem Refusal.classifyHorizonError_eq (h : Refusal e n) : classifyHorizonError (.object e cause) = .permanent := by
  have ⟨h₁, h₂, h₃, h₄⟩ := h.range
  have hc (timeouts : Bool) : categoryOfStatus timeouts (some n) = some .permanent := by
    simp [categoryOfStatus, h₁, h₃, h₄]
    omega
  rw [classifyHorizonError, h.status]
  rcases h.mirror with hm | hm
  case inl =>
    have h₀ : categoryOfStatus false none = none := rfl
    simp [hm, Field.number?, h₀, hc]
  case inr => simp [hm, Field.number?, hc]

theorem Refusal.isTransientHorizonError_eq (h : Refusal e n) : isTransientHorizonError (.object e cause) = false := by
  have ⟨h₁, h₂, h₃, h₄⟩ := h.range
  have hs : extractHttpStatus (.object e cause) = some n := by
    have hs := h.status
    cases hr : e.responseStatus <;> cases ht : e.status <;> simp_all [Field.orElse, extractHttpStatus, Field.number?]
  have hn : ¬(n = 501 ∨ n = 505) ∧ ¬n ≥ 500 := by omega
  simp [isTransientHorizonError, hs, isTransientStatus, h₁, h₂, h₃, h₄, hn]

-- The loops send a request only once if it is refused, whatever else they are told to do. Only `retryRead` takes it for a
-- failure of the provider if the code says so.
theorem refused_once (h : Refusal e n) (hf : fn 1 = .rejected (.object e cause)) (H : Host) (R : Readings)
    (options : RetryOptions) (policy : ReadRetryPolicy) (policy' : HorizonRetryPolicy) (backoff : BackoffPolicy)
    (beforeRetry : Thrown → Nat → Bool) :
    (withRetry H R options fn).attempts = 1 ∧
    (e.code ≠ some (some "UPSTREAM_ERROR") →
      (retryRead policy R.random fun n => withTimeout options.operation options.timeoutMs (fn n)).attempts = 1) ∧
    (withHorizonRetry policy' R.random beforeRetry fun n =>
      withTimeout options.operation options.timeoutMs (fn n)).attempts = 1 ∧
    (retryWithBackoff backoff isTransientHorizonError R.random fun n =>
      withTimeout options.operation options.timeoutMs (fn n)).attempts = 1 := by
  have he : withTimeout options.operation options.timeoutMs (fn 1) = .error (.object e cause) :=
    hf ▸ h.withTimeout_eq ..
  have once {m} {next : Thrown → Nat → Option Nat} (hm : 0 < m) (hn : next (.object e cause) 1 = none) :
      (retry m (fun n => withTimeout options.operation options.timeoutMs (fn n)) next).attempts = 1 := by
    have hr := follows_retry (fun n => withTimeout options.operation options.timeoutMs (fn n)) next hm
    refine Nat.le_antisymm (hr.attempts_le (Nat.le_refl _) fun d ⟨e', he', hd⟩ => ?_) hr.within.1
    cases he.symm.trans he'
    cases hn.symm.trans hd
  refine ⟨once options.policy.attempts_pos ?_, fun hc => once policy.attempts_pos ?_, once policy'.attempts_pos ?_,
    once backoff.attempts_pos ?_⟩
  case refine_1 => simp [h.decideRetry_eq]
  case refine_2 => simp [classifyExternalError, hc]
  case refine_3 => simp [h.classifyHorizonError_eq]
  case refine_4 => simp [h.isTransientHorizonError_eq]

-- An `AppError`, which mirrors its status
def notFound : ErrorFields where
  code       := some (some "NOT_FOUND")
  status     := .number 404
  statusCode := .number 404

theorem refused_once_notFound :
    let fn : Nat → Attempt String := fun _ => .rejected (.object notFound .nullish)
    let timed n := withTimeout secondTry.operation secondTry.timeoutMs (fn n)
    (withRetry ⟨fun _ => none⟩ ⟨fun n => n, fun _ => 1 / 2⟩ secondTry fn).attempts = 1 ∧
    (retryRead ⟨3, 200, 2000, by decide⟩ (fun _ => 1 / 2) timed).attempts = 1 ∧
    (withHorizonRetry {} (fun _ => 1 / 2) (fun _ _ => true) timed).attempts = 1 ∧
    (retryWithBackoff ⟨⟨1000, 15000, 2, true, 1 / 4⟩, 3, by decide⟩ isTransientHorizonError (fun _ => 1 / 2) timed).attempts
      = 1 := by
  intro fn timed
  have hr : Refusal notFound 404 := ⟨rfl, .inr rfl, by decide, by decide⟩
  have hf : fn 1 = .rejected (.object notFound .nullish) := rfl
  have ⟨h₁, h₂, h₃⟩ := refused_once hr hf ⟨fun _ => none⟩ ⟨fun n => n, fun _ => 1 / 2⟩ secondTry
    ⟨3, 200, 2000, by decide⟩ {} ⟨⟨1000, 15000, 2, true, 1 / 4⟩, 3, by decide⟩ fun _ _ => true
  exact ⟨h₁, h₂ (by decide), h₃⟩

end Mergepay.Upstream
