import Mergepay.Limits.Buckets

namespace Mergepay.Limits

open Text FixedWindow

-- The answers to requests whose clock readings fall into some windows
structure Counted (length : Nat) (arrivals : List Arrival) (told : List (Arrival × Option IncrResult))
    (ws : List (List Int)) : Prop where
  complete : ws.flatten = arrivals.map (·.now)
  cut      : Cut length ws
  told     : told = arrivals.zipWith answer (ws.flatMap <| tally length)

section

variable (config : Config) (verifyToken : JsString → Option AuthUser)

-- The requests of a bucket whose statements take effect
def ofBucket (b : RateLimitPolicyName × Identity) (a : Arrival) : Bool :=
  a.bucket config verifyToken = b ∧ a.fate ≠ .failed

-- Identities that are not cut off at the end of a key
def IsShort (a : Arrival) : Prop :=
  (label config a.policy (a.bucket config verifyToken).2).length ≤ maxKeyLength

instance : DecidablePred <| IsShort config verifyToken :=
  fun a => inferInstanceAs <| Decidable ((label config a.policy (a.bucket config verifyToken).2).length ≤ maxKeyLength)

end

variable {config : Config} {verifyToken : JsString → Option AuthUser} {arrivals : List Arrival} {a a' : Arrival}

theorem bucket_eq_of_key (hs : IsShort config verifyToken a) (hs' : IsShort config verifyToken a')
    (h : a.key config verifyToken = a'.key config verifyToken) :
    a.bucket config verifyToken = a'.bucket config verifyToken := by
  rw [key_eq, key_eq] at h
  have ⟨hn, _, hi⟩ := eq_of_bound_label h
  exact Prod.ext hn (hi hs hs')

theorem key_of_bucket (h : a.bucket config verifyToken = a'.bucket config verifyToken) :
    a.key config verifyToken = a'.key config verifyToken := by
  have hp : a.policy = a'.policy := congrArg Prod.fst h
  rw [key_eq, key_eq, h, hp]

-- All policies and kinds of identities are kept apart, whatever their requests contain.
theorem keys_apart (h : a.policy ≠ a'.policy ∨
      (a.bucket config verifyToken).2.isUser ≠ (a'.bucket config verifyToken).2.isUser) (rows : PrismaRateLimitStore.Rows) :
    (serve config verifyToken rows a).2.get? (a'.key config verifyToken) = rows.get? (a'.key config verifyToken) := by
  refine serve_other fun hc => ?_
  have hk := (of_decide_eq_true hc).1
  rw [key_eq, key_eq] at hk
  have ⟨hn, hu, _⟩ := eq_of_bound_label hk
  cases h with
  | inl h => exact h hn
  | inr h => exact h hu

theorem keys_apart_global :
    (serve Config.default (fun _ => none) [(JsString.ofString "global:ip:192.0.2.1", ⟨7, 60000, 10⟩)]
      ⟨.authVerify, ⟨none, some (.ofString "192.0.2.1"), none⟩, 20, .answered⟩).2.get?
        (.ofString "global:ip:192.0.2.1") = some ⟨7, 60000, 10⟩ :=
  @keys_apart _ _ _ ⟨.global, ⟨none, some (.ofString "192.0.2.1"), none⟩, 20, .answered⟩ (.inl (by decide)) _

theorem map_run (config : Config) (verifyToken : JsString → Option AuthUser) (arrivals : List Arrival) :
    (run config verifyToken arrivals).1.map (·.1) = arrivals := by
  induction arrivals using List.reverseRecOn with
  | nil                            => rfl
  | append_singleton arrivals a hi => simp [run_append, hi]

theorem mem_of_mem_run {e : Arrival × Option IncrResult} (h : e ∈ (run config verifyToken arrivals).1) :
    e.1 ∈ arrivals :=
  map_run config verifyToken arrivals ▸ List.mem_map_of_mem h

theorem ofBucket_iff (hs : ∀ a ∈ arrivals, IsShort config verifyToken a) (ha : a ∈ arrivals) (ha' : a' ∈ arrivals) :
    ofBucket config verifyToken (a'.bucket config verifyToken) a =
      counts config verifyToken (a'.key config verifyToken) a := by
  refine decide_eq_decide.mpr <| and_congr_left fun _ => ⟨key_of_bucket, bucket_eq_of_key (hs a ha) (hs a' ha')⟩

-- Each bucket is counted in windows of its own, as if there were no other requests.
theorem windows_of_bucket (hs : ∀ a ∈ arrivals, IsShort config verifyToken a) (b : RateLimitPolicyName × Identity) :
    Counted (timeWindow config b.1) (arrivals.filter <| ofBucket config verifyToken b)
      ((run config verifyToken arrivals).1.filter (ofBucket config verifyToken b ·.1))
      (windows (timeWindow config b.1) <| (arrivals.filter <| ofBucket config verifyToken b).map (·.now)) where
  complete := flatten_windows
  cut      := cut_windows (Int.natCast_nonneg _)
  told     := by
    rw [← told_eq (Int.natCast_nonneg _)]
    by_cases h : ∃ a' ∈ arrivals, a'.bucket config verifyToken = b
    case pos =>
      obtain ⟨a', ha', rfl⟩ := h
      have hk : ∀ a ∈ arrivals, a.key config verifyToken = a'.key config verifyToken →
          timeWindow config a.policy = timeWindow config a'.policy := by
        intro a ha hk
        rw [show a.policy = a'.policy from congrArg Prod.fst <| bucket_eq_of_key (hs a ha) (hs a' ha') hk]
      rw [List.filter_congr fun a ha => ofBucket_iff hs ha ha',
        List.filter_congr fun e he => ofBucket_iff hs (mem_of_mem_run he) ha']
      exact (run_key hk).1
    case neg =>
      have hn : ∀ a ∈ arrivals, ¬ofBucket config verifyToken b a :=
        fun a ha hb => h ⟨a, ha, (of_decide_eq_true hb).1⟩
      rw [List.filter_eq_nil_iff.mpr hn, List.filter_eq_nil_iff.mpr fun e he => hn e.1 (mem_of_mem_run he)]
      rfl

-- Two requests of an address, and one of another address between them
def visits : List Arrival :=
  [⟨.authVerify, ⟨none, some (.ofString "192.0.2.1"), none⟩, 10, .answered⟩,
    ⟨.authVerify, ⟨none, some (.ofString "192.0.2.2"), none⟩, 20, .answered⟩,
    ⟨.authVerify, ⟨none, some (.ofString "192.0.2.1"), none⟩, 30, .answered⟩]

theorem windows_of_visits : Counted 60000
    (visits.filter <| ofBucket Config.default (fun _ => none) (.authVerify, .ip (.ofString "192.0.2.1")))
    ((run Config.default (fun _ => none) visits).1.filter
      (ofBucket Config.default (fun _ => none) (.authVerify, .ip (.ofString "192.0.2.1")) ·.1))
    [[10, 30]] := by
  have hs : ∀ a ∈ visits, IsShort Config.default (fun _ => none) a := by
    decide +kernel
  have hw : windows (timeWindow Config.default .authVerify) ((visits.filter <| ofBucket Config.default (fun _ => none)
      (.authVerify, .ip (.ofString "192.0.2.1"))).map (·.now)) = [[10, 30]] := by
    decide +kernel
  exact hw ▸ windows_of_bucket hs (.authVerify, .ip (.ofString "192.0.2.1"))

theorem isSome_iff_answered {e : Arrival × Option IncrResult} (h : e ∈ (run config verifyToken arrivals).1) :
    e.2.isSome ↔ e.1.fate = .answered := by
  induction arrivals using List.reverseRecOn with
  | nil => cases h
  | append_singleton arrivals a hi =>
    rw [run_append] at h
    cases List.mem_append.mp h with
    | inl h => exact hi h
    | inr h =>
      cases List.mem_singleton.mp h
      rcases a with ⟨policy, req, now, fate⟩
      cases fate <;> simp [serve]

-- An interval as long as the time window of a policy
def Within (config : Config) (b : RateLimitPolicyName × Identity) (m t : Int) : Prop :=
  m ≤ t ∧ t < m + timeWindow config b.1

instance {b : RateLimitPolicyName × Identity} {m t : Int} : Decidable (Within config b m t) :=
  inferInstanceAs <| Decidable (_ ∧ _)

-- A request passes the limiter if it is told a count up to the maximum, or told nothing.
def admits (config : Config) (b : RateLimitPolicyName × Identity) (result : Option IncrResult) : Bool :=
  result.all (·.current ≤ (rateLimitPolicies config b.1).max)

-- Among the requests that are told their counts, there are few.
theorem few_told (verifyToken : JsString → Option AuthUser) {late : Int} (m : Int) {k : Nat}
    (b : RateLimitPolicyName × Identity)
    (hl : 0 < timeWindow config b.1) (h₀ : 0 ≤ late) (hk : late ≤ k * timeWindow config b.1)
    (hp : arrivals.Pairwise fun a a' => a.now ≤ a'.now + late) :
    (run config verifyToken arrivals).1.countP (fun (a, result) => a.bucket config verifyToken = b ∧
      Within config b m a.now ∧ ∃ r ∈ result, r.current ≤ (rateLimitPolicies config b.1).max) ≤
    (rateLimitPolicies config b.1).max * (k + 2) := by
  by_cases h : ∃ a' ∈ arrivals, a'.bucket config verifyToken = b
  case neg =>
    rw [List.countP_eq_zero.mpr fun e he hb => h ⟨e.1, mem_of_mem_run he, (of_decide_eq_true hb).1⟩]
    exact Nat.zero_le _
  case pos =>
    obtain ⟨a', ha', rfl⟩ := h
    let key := a'.key config verifyToken
    have hw : ∀ a ∈ arrivals, a.key config verifyToken = key →
        timeWindow config a.policy = timeWindow config a'.policy := by
      intro a _ hk
      rw [show key = _ from key_eq a', key_eq] at hk
      rw [(eq_of_bound_label hk).1]
    have he : (readings config verifyToken key arrivals).Pairwise (· ≤ · + late) :=
      List.pairwise_map.mpr (hp.filter _)
    -- Only requests that have been counted for the key are answered.
    calc (run config verifyToken arrivals).1.countP _
      _ ≤ ((run config verifyToken arrivals).1.filter (counts config verifyToken key ·.1)).countP fun e =>
          (m ≤ e.1.now ∧ e.1.now < m + timeWindow config a'.policy) ∧
          ∃ r ∈ e.2, r.current ≤ (rateLimitPolicies config a'.policy).max := by
        rw [List.countP_filter]
        refine List.countP_mono_left fun e he h => ?_
        obtain ⟨hb, hm, r, hr, hle⟩ := of_decide_eq_true h
        have hf := (isSome_iff_answered he).mp (Option.isSome_of_mem hr)
        have hk : e.1.key config verifyToken = key := key_of_bucket hb
        simpa [counts, hk, hf] using ⟨hm, r, hr, hle⟩
      _ = ((arrivals.filter <| counts config verifyToken key).zip
          (track (timeWindow config a'.policy) <| readings config verifyToken key arrivals).1).countP fun e =>
            (m ≤ e.1.now ∧ e.1.now < m + timeWindow config a'.policy) ∧
            ∃ r ∈ (answer e.1 e.2).2, r.current ≤ (rateLimitPolicies config a'.policy).max := by
        rw [(run_key hw).1, ← List.map_uncurry_zip_eq_zipWith, List.countP_map]
        rfl
      _ ≤ ((admitted (rateLimitPolicies config a'.policy).max (timeWindow config a'.policy) <|
            readings config verifyToken key arrivals).filter fun t =>
              m ≤ t ∧ t < m + timeWindow config a'.policy).length := by
        rw [admitted, readings, List.zip_map_left, ← List.countP_eq_length_filter, List.countP_map, List.countP_filter,
          List.countP_map]
        refine List.countP_mono_left fun e _ h => ?_
        obtain ⟨hm, r, hr, hle⟩ := of_decide_eq_true h
        simp only [answer] at hr
        split at hr
        case isTrue =>
          cases hr
          simpa using ⟨hm, hle⟩
        case isFalse => cases hr
      _ ≤ _ := length_admitted_le (Int.natCast_pos.mpr hl) he h₀ hk

-- More than twice the maximum of a policy is never admitted in an interval, except for requests that come late, and for
-- those that are not checked because their statements fail.
theorem few_admitted {late m : Int} {k : Nat} (b : RateLimitPolicyName × Identity)
    (hl : 0 < timeWindow config b.1) (h₀ : 0 ≤ late) (hk : late ≤ k * timeWindow config b.1)
    (hp : arrivals.Pairwise fun a a' => a.now ≤ a'.now + late) :
    (run config verifyToken arrivals).1.countP (fun (a, result) => a.bucket config verifyToken = b ∧
      Within config b m a.now ∧ admits config b result) ≤
    (rateLimitPolicies config b.1).max * (k + 2) +
      arrivals.countP fun a => a.bucket config verifyToken = b ∧ Within config b m a.now ∧ a.fate ≠ .answered := by
  rw [List.countP_eq_countP_filter_add (run config verifyToken arrivals).1 _ (·.2.isSome)]
  refine Nat.add_le_add (le_trans ?told (few_told verifyToken m b hl h₀ hk hp)) ?skipped
  case told =>
    rw [List.countP_filter]
    refine List.countP_mono_left ?_
    rintro ⟨a, result⟩ _ h
    cases result with
    | none   => simp at h
    | some r => simpa [admits] using h
  case skipped =>
    conv_rhs => rw [← map_run config verifyToken arrivals, List.countP_map]
    rw [List.countP_filter]
    refine List.countP_mono_left ?_
    rintro ⟨a, result⟩ he h
    cases result with
    | none   =>
      have hf : a.fate ≠ .answered := fun hf => by simpa using (isSome_iff_answered he).mpr hf
      simpa [admits, hf] using h
    | some r => simp at h

def visit (now : Int) : Arrival :=
  ⟨.authVerify, ⟨none, some (.ofString "192.0.2.1"), none⟩, now, .answered⟩

-- A window is opened, and filled shortly before it ends. The next one is filled at once.
def burst : List Arrival :=
  visit 0 :: List.replicate 10 (visit 59999) ++ List.replicate 11 (visit 60000)

theorem few_admitted_burst :
    let admitted := (run Config.default (fun _ => none) burst).1.countP fun (a, result) =>
      a.bucket Config.default (fun _ => none) = (.authVerify, .ip (.ofString "192.0.2.1")) ∧
      Within Config.default (.authVerify, .ip (.ofString "192.0.2.1")) 59999 a.now ∧
      admits Config.default (.authVerify, .ip (.ofString "192.0.2.1")) result
    admitted = 19 ∧ admitted ≤ 10 * (0 + 2) + burst.countP fun a =>
      a.bucket Config.default (fun _ => none) = (.authVerify, .ip (.ofString "192.0.2.1")) ∧
      Within Config.default (.authVerify, .ip (.ofString "192.0.2.1")) 59999 a.now ∧ a.fate ≠ .answered :=
  ⟨by decide +kernel,
    few_admitted (.authVerify, .ip (.ofString "192.0.2.1")) (by decide) le_rfl (by decide) (by decide +kernel)⟩

end Mergepay.Limits
