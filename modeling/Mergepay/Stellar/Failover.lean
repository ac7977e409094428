import Mathlib.Data.List.Dedup
import Mathlib.Data.List.Perm.Subperm
import Mergepay.Data.OrderedMap
import Mergepay.Schema

namespace Mergepay.Stellar

-- What is read of an error of Horizon. The message stands for the rest of it.
structure HorizonError where
  status  : Option Nat
  message : String
  deriving DecidableEq

def HorizonError.isRetryable (error : HorizonError) : Bool :=
  error.status.all fun status => status = 408 ∨ status = 429 ∨ status ≥ 500

-- The state of the module. Endpoints are numbered.
structure Horizon (n : Nat) where
  activeServer : Nat := 0
  failedUntil  : OrderedMap Nat Time := []
  inRange      : 0 < n → activeServer < n := by intro h; exact h

-- How the attempts of a call turn out. The clock is read for the selection of an endpoint, after a failure, and
-- for each endpoint that is looked at then.
structure Attempts (α : Type) where
  selectedAt : Nat → Time
  answer     : (attempt endpoint : Nat) → Except HorizonError α
  failedAt   : Nat → Time
  scannedAt  : (attempt endpoint : Nat) → Time
  selected_le (attempt : Nat) : selectedAt attempt ≤ failedAt attempt
  failed_le (attempt endpoint : Nat) : failedAt attempt ≤ scannedAt attempt endpoint
  scanned_le (attempt endpoint : Nat) : scannedAt attempt endpoint ≤ selectedAt (attempt + 1)

structure Invocation (α : Type) where
  attempt  : Nat
  endpoint : Nat
  answer   : Except HorizonError α

structure FailoverCall (n : Nat) (α : Type) where
  horizon     : Horizon n
  invocations : List (Invocation α)
  result      : Except (Option HorizonError) α

namespace Horizon

variable {n : Nat} (s : Horizon n)

def quarantined (i : Nat) (now : Time) : Bool :=
  now < (s.failedUntil.get? i).getD 0

def available (now : Time) : List Nat :=
  (List.range n).filter (¬s.quarantined · now)

-- The endpoint that has been active is preferred.
def preferred (now : Time) : Nat :=
  (((s.available now).find? (· = s.activeServer)) <|> (s.available now).head?).getD s.activeServer

theorem mem_available {i : Nat} {now : Time} : i ∈ s.available now ↔ i < n ∧ s.quarantined i now = false := by
  simp [available]

theorem preferred_cases (now : Time) : s.preferred now ∈ s.available now ∨
    s.preferred now = s.activeServer ∧ s.available now = [] := by
  unfold preferred
  cases hf : (s.available now).find? (· = s.activeServer) with
  | some i => exact .inl (List.mem_of_find?_eq_some hf)
  | none   =>
    cases ha : s.available now with
    | nil        => exact .inr ⟨rfl, rfl⟩
    | cons hd tl => exact .inl (.head _)

theorem preferred_lt (now : Time) (h : 0 < n) : s.preferred now < n := by
  rcases s.preferred_cases now with hm | ⟨he, _⟩
  case inl => exact (s.mem_available.mp hm).1
  case inr => exact he ▸ s.inRange h

-- Selects an endpoint.
def server (now : Time) : Horizon n where
  activeServer := s.preferred now
  failedUntil  := s.failedUntil
  inRange      := s.preferred_lt now

def quarantine (i : Nat) (deadline : Time) : Horizon n :=
  { s with failedUntil := s.failedUntil.set i deadline }

-- The first endpoint that has not been tried.
def next (tried : List Nat) (now : Nat → Time) : Option Nat :=
  (List.range n).find? fun i => i ∉ tried ∧ ¬s.quarantined i (now i)

variable {s}

theorem next_lt {tried : List Nat} {now : Nat → Time} {i : Nat} (h : s.next tried now = some i) : i < n :=
  List.mem_range.mp (List.mem_of_find?_eq_some h)

def rotate {tried : List Nat} {now : Nat → Time} {i : Nat} (s : Horizon n) (h : s.next tried now = some i) :
    Horizon n where
  activeServer := i
  failedUntil  := s.failedUntil
  inRange      := fun _ => next_lt h

end Horizon

variable {n : Nat} {α : Type}

-- The loop of `withHorizonFailover` with the number of attempts that are left.
def failoverLoop (W : Attempts α) : (left attempt : Nat) → (tried : List Nat) →
    (lastError : Option HorizonError) → Horizon n → FailoverCall n α
  | 0, _, _, lastError, s              => { horizon := s, invocations := [], result := .error lastError }
  | left + 1, attempt, tried, _, s =>
    -- The index is taken before an endpoint is selected.
    let index := s.activeServer
    let tried := tried.insert index
    let s := s.server (W.selectedAt attempt)
    let invocation : Invocation α := {
      attempt
      endpoint := s.activeServer
      answer   := W.answer attempt s.activeServer
    }
    match invocation.answer with
    | .ok a    => { horizon := s, invocations := [invocation], result := .ok a }
    | .error e =>
      if ¬e.isRetryable then
        { horizon := s, invocations := [invocation], result := .error (some e) }
      else
        let s := s.quarantine index (W.failedAt attempt + 30000)
        match h : s.next tried (W.scannedAt attempt) with
        | none   => { horizon := s, invocations := [invocation], result := .error (some e) }
        | some _ =>
          let call := failoverLoop W left (attempt + 1) tried (some e) (s.rotate h)
          { call with invocations := invocation :: call.invocations }

def withHorizonFailover (W : Attempts α) (s : Horizon n) : FailoverCall n α :=
  failoverLoop W n 0 [] none s

-- The state after some calls.
def afterCalls (Ws : List (Attempts α)) (s : Horizon n) : Horizon n :=
  Ws.foldl (fun s W => (withHorizonFailover W s).horizon) s

-- The operation has failed with an error that another endpoint may not have.
def Invocation.failed (v : Invocation α) : Bool :=
  match v.answer with
  | .ok _    => false
  | .error e => e.isRetryable

-- The quarantine that is due to the invocations of a call.
def quarantineOf (W : Attempts α) (l : List (Invocation α)) (i : Nat) : Option Time :=
  (l.find? fun v => v.endpoint = i ∧ v.failed).map (W.failedAt ·.attempt + 30000)

-- No endpoint is tried twice, those that fail are quarantined, and no endpoint is left out before a call fails.
structure Faithful (W : Attempts α) (s : Horizon n) (c : FailoverCall n α) : Prop where
  once        : (c.invocations.map (·.endpoint)).Nodup
  quarantines : ∀ i, c.horizon.failedUntil.get? i =
    (quarantineOf W c.invocations i <|> s.failedUntil.get? i)
  exhausted   : ∀ e, c.result = .error e → e.all (·.isRetryable) = true →
    ∀ i ∈ s.available (W.selectedAt 0), i ∈ c.invocations.map (·.endpoint)

-- The active endpoint is passed over for one that turns out to fail.
def Misdirected (W : Attempts α) (s : Horizon n) : Prop :=
  s.quarantined s.activeServer (W.selectedAt 0) = true ∧ ∃ i ∈ (s.available (W.selectedAt 0)).head?,
    ∃ e, W.answer 0 i = .error e ∧ e.isRetryable = true

-- The same for an iteration of the loop, when some endpoints have been tried.
structure Fair (W : Attempts α) (tried : List Nat) (now : Time) (s : Horizon n) (c : FailoverCall n α) :
    Prop where
  once        : (c.invocations.map (·.endpoint)).Nodup
  fresh       : ∀ v ∈ c.invocations, v.endpoint ∉ tried
  quarantines : ∀ i, c.horizon.failedUntil.get? i =
    (quarantineOf W c.invocations i <|> s.failedUntil.get? i)
  exhausted   : ∀ e, c.result = .error e → e.all (·.isRetryable) = true →
    ∀ i ∈ s.available now, i ∈ tried ∨ i ∈ c.invocations.map (·.endpoint)

section

variable {W : Attempts α} {s : Horizon n} {tried : List Nat} {left attempt : Nat} {lastError : Option HorizonError}

theorem Attempts.selected_le_scanned (W : Attempts α) (attempt i : Nat) :
    W.selectedAt attempt ≤ W.scannedAt attempt i :=
  Int.le_trans (W.selected_le attempt) (W.failed_le attempt i)

theorem Attempts.selected_le_next (W : Attempts α) (attempt : Nat) :
    W.selectedAt attempt ≤ W.selectedAt (attempt + 1) :=
  Int.le_trans (W.selected_le_scanned attempt 0) (W.scanned_le attempt 0)

-- Quarantines come to an end.
theorem Horizon.not_quarantined_mono {s' : Horizon n} {i : Nat} {t t' : Time}
    (hs : s'.failedUntil.get? i = s.failedUntil.get? i) (ht : t ≤ t') (h : s.quarantined i t = false) :
    s'.quarantined i t' = false := by
  simp only [quarantined, hs, decide_eq_false_iff_not] at h ⊢
  exact fun hlt => h (Int.lt_of_le_of_lt ht hlt)

theorem Horizon.preferred_eq (ha : s.activeServer ∈ s.available now) : s.preferred now = s.activeServer := by
  have hf : (s.available now).find? (· = s.activeServer) = some s.activeServer := by
    cases h : (s.available now).find? (· = s.activeServer) with
    | none   => simpa using List.find?_eq_none.mp h _ ha
    | some i => simpa using List.find?_some h
  simp [preferred, hf]

-- The endpoint that is rotated to is still available when it is going to be selected.
theorem Horizon.rotate_preferred {s' : Horizon n} {i : Nat} {now : Nat → Time} {t : Time}
    (h : s'.next tried now = some i) (ht : now i ≤ t) : (s'.rotate h).preferred t = i := by
  have hi := List.find?_some h
  simp only [decide_eq_true_eq, Bool.not_eq_true] at hi
  exact Horizon.preferred_eq (s := s'.rotate h) <|
    (Horizon.mem_available _).mpr ⟨next_lt h, Horizon.not_quarantined_mono (s := s') rfl ht hi.2⟩

theorem Horizon.next_not_mem {s' : Horizon n} {i : Nat} {now : Nat → Time} (h : s'.next tried now = some i) :
    i ∉ tried := by
  have hi := List.find?_some h
  simp only [decide_eq_true_eq] at hi
  exact hi.1

theorem quarantineOf_cons {v : Invocation α} {l : List (Invocation α)} {i : Nat} :
    quarantineOf W (v :: l) i = if v.endpoint = i ∧ v.failed = true then some (W.failedAt v.attempt + 30000)
      else quarantineOf W l i := by
  unfold quarantineOf
  by_cases h : v.endpoint = i ∧ v.failed = true <;> simp [h]

@[simp]
theorem quarantineOf_nil {i : Nat} : quarantineOf W [] i = none :=
  rfl

theorem quarantineOf_eq_none {l : List (Invocation α)} {i : Nat} (h : i ∉ l.map (·.endpoint)) :
    quarantineOf W l i = none := by
  have hn : l.find? (fun v => v.endpoint = i ∧ v.failed) = none :=
    List.find?_eq_none.mpr fun v hv hi => h (List.mem_map.mpr ⟨v, hv, (of_decide_eq_true hi).1⟩)
  rw [quarantineOf, hn]
  rfl

-- An iteration that is the last one.
theorem Fair.last {tried : List Nat} {now : Time} {v : Invocation α} {c : FailoverCall n α}
    (hc : c.invocations = [v]) (hv : v.endpoint ∉ tried)
    (hq : ∀ i, c.horizon.failedUntil.get? i = (quarantineOf W [v] i <|> s.failedUntil.get? i))
    (he : ∀ e, c.result = .error e → e.all (·.isRetryable) = true → ∀ i ∈ s.available now, i ∈ tried ∨ i = v.endpoint) :
    Fair W tried now s c where
  once        := by simp [hc]
  fresh       := by simpa [hc] using hv
  quarantines := hc ▸ hq
  exhausted   := by simpa [hc] using he

theorem Horizon.quarantined_of_next {s' : Horizon n} {now : Nat → Time} {i : Nat} (h : s'.next tried now = none)
    (hi : i < n) (ht : i ∉ tried) : s'.quarantined i (now i) = true := by
  have hn := List.find?_eq_none.mp h i (List.mem_range.mpr hi)
  simpa [ht] using hn

-- An iteration that is followed by others, after its endpoint has been quarantined.
theorem Fair.cons {s' : Horizon n} {now t : Time} {v : Invocation α} {c : FailoverCall n α}
    (h : Fair W (tried.insert v.endpoint) t s' c) (hv : v.endpoint ∉ tried) (hf : v.failed = true)
    (hs : s'.failedUntil = s.failedUntil.set v.endpoint (W.failedAt v.attempt + 30000)) (ht : now ≤ t) :
    Fair W tried now s { c with invocations := v :: c.invocations } := by
  have hnot : v.endpoint ∉ c.invocations.map (·.endpoint) := by
    intro hm
    have ⟨w, hw, he⟩ := List.mem_map.mp hm
    exact h.fresh w hw (he ▸ List.mem_insert_self)
  refine ⟨List.nodup_cons.mpr ⟨hnot, h.once⟩, fun w hw => ?_, fun i => ?_, fun e he hr i hi => ?_⟩
  case refine_1 =>
    rcases List.mem_cons.mp hw with rfl | hw
    case inl => exact hv
    case inr => exact fun hm => h.fresh w hw (List.mem_insert_of_mem hm)
  case refine_2 =>
    have hq := h.quarantines i
    rw [hs, OrderedMap.get?_set] at hq
    rw [quarantineOf_cons]
    by_cases he : v.endpoint = i
    case pos =>
      subst he
      rw [quarantineOf_eq_none hnot, if_pos rfl] at hq
      rw [if_pos ⟨rfl, hf⟩]
      exact hq
    case neg =>
      rw [if_neg he] at hq
      rw [if_neg fun h => he h.1]
      exact hq
  case refine_3 =>
    rw [List.map_cons, List.mem_cons]
    by_cases hv : i = v.endpoint
    case pos => exact .inr (.inl hv)
    case neg =>
      have ⟨hlt, hn⟩ := (s.mem_available).mp hi
      have hi : i ∈ s'.available t := (s'.mem_available).mpr ⟨hlt,
        Horizon.not_quarantined_mono (by rw [hs, OrderedMap.get?_set_ne _ (Ne.symm hv)]) ht hn⟩
      rcases h.exhausted e he hr i hi with hm | hm
      case inl => exact .inl <| (List.mem_insert_iff.mp hm).resolve_left hv
      case inr => exact .inr (.inr hm)

-- The loop selects the endpoint that is active, unless it has been passed over at the beginning.
theorem failoverLoop_fair (hp : 0 < left → s.preferred (W.selectedAt attempt) = s.activeServer ∧ s.activeServer ∉ tried)
    (hd : tried.Nodup) (hn : ∀ i ∈ tried, i < n) (hl : tried.length + left = n) :
    Fair W tried (W.selectedAt attempt) s (failoverLoop W left attempt tried lastError s) := by
  induction left generalizing attempt tried lastError s with
  | zero =>
    refine ⟨.nil, (fun _ h => by cases h), fun i => rfl, fun _ _ _ i hi => .inl ?_⟩
    -- All endpoints have been tried.
    have hsub : tried ⊆ List.range n := fun j hj => List.mem_range.mpr (hn j hj)
    have hperm : List.Perm tried (List.range n) :=
      (List.subperm_of_subset hd hsub).perm_of_length_le (by
        rw [List.length_range]
        omega)
    exact hperm.mem_iff.mpr (List.mem_range.mpr ((s.mem_available).mp hi).1)
  | succ left hi =>
    obtain ⟨hpref, hfresh⟩ := hp (Nat.succ_pos left)
    have hlt : s.activeServer < n := s.inRange (by omega)
    have hserver : (s.server (W.selectedAt attempt)).activeServer = s.activeServer := hpref
    simp only [failoverLoop, hserver]
    split
    case h_1 a ha =>
      exact .last rfl hfresh (fun i => by simp [quarantineOf_cons, Invocation.failed, ha, Horizon.server]) fun _ he => by cases he
    case h_2 e ha =>
      split
      case isTrue hr =>
        refine .last rfl hfresh (fun i => ?_) fun e' he hr' => ?_
        · simp [quarantineOf_cons, Invocation.failed, ha, hr, Horizon.server]
        · cases he
          exact (hr hr').elim
      case isFalse hr =>
        have hr : e.isRetryable = true := not_not.mp hr
        split
        case h_1 hnext =>
          refine .last rfl hfresh (fun i => ?_) fun _ _ _ i hi => ?_
          case refine_1 =>
            rw [quarantineOf_cons]
            refine (OrderedMap.get?_set ..).trans ?_
            by_cases hi : s.activeServer = i
            case pos =>
              subst hi
              simp [Invocation.failed, ha, hr]
            case neg => simp [hi, Horizon.server]
          case refine_2 =>
            by_contra hno
            obtain ⟨ht, he⟩ := not_or.mp hno
            obtain ⟨hlt, hq⟩ := (s.mem_available).mp hi
            have hq' := Horizon.quarantined_of_next hnext hlt (by simp [ht, he])
            refine Bool.false_ne_true <| (Horizon.not_quarantined_mono (s := s) ?_
              (W.selected_le_scanned attempt i) hq).symm.trans hq'
            exact OrderedMap.get?_set_ne _ (Ne.symm he)
        case h_2 j hnext =>
          have hlen : (tried.insert s.activeServer).length + left = n := by
            rw [List.length_insert_of_not_mem hfresh]
            omega
          have hin : ∀ i ∈ tried.insert s.activeServer, i < n := by
            simpa using ⟨hlt, hn⟩
          refine Fair.cons (v := ⟨attempt, s.activeServer, W.answer attempt s.activeServer⟩)
            (hi (fun _ => ⟨Horizon.rotate_preferred hnext (W.scanned_le attempt j), Horizon.next_not_mem hnext⟩)
              hd.insert hin hlen) hfresh ?_ rfl (W.selected_le_next attempt)
          simp [Invocation.failed, ha, hr]

theorem Fair.faithful {c : FailoverCall n α} (h : Fair W [] (W.selectedAt 0) s c) : Faithful W s c where
  once        := h.once
  quarantines := h.quarantines
  exhausted   := fun e he hr i hi => (h.exhausted e he hr i hi).resolve_left List.not_mem_nil

-- An endpoint that is quarantined is passed over, if possible.
theorem Horizon.preferred_of_quarantined {now : Time} (h : s.quarantined s.activeServer now = true) :
    s.preferred now = (s.available now).head?.getD s.activeServer := by
  have hf : (s.available now).find? (· = s.activeServer) = none := by
    refine List.find?_eq_none.mpr fun i hi he => ?_
    cases of_decide_eq_true he
    cases ((s.mem_available).mp hi).2.symm.trans h
  simp [preferred, hf]

theorem Horizon.head_of_preferred_ne {now : Time} (h : s.preferred now ≠ s.activeServer) :
    0 < n ∧ s.quarantined s.activeServer now = true ∧ (s.available now).head? = some (s.preferred now) := by
  have hmem : s.preferred now ∈ s.available now := (s.preferred_cases now).resolve_right fun hp => h hp.1
  have hn : 0 < n := Nat.lt_of_le_of_lt (Nat.zero_le _) ((s.mem_available).mp hmem).1
  have hq : s.quarantined s.activeServer now = true := by
    by_contra hq
    exact h <| Horizon.preferred_eq <| (s.mem_available).mpr ⟨s.inRange hn, Bool.eq_false_iff.mpr hq⟩
  refine ⟨hn, hq, ?_⟩
  have hp := Horizon.preferred_of_quarantined hq
  cases hh : (s.available now).head? with
  | none   => exact (h (by rw [hp, hh]; rfl)).elim
  | some i => rw [hp, hh]; rfl

theorem faithful_of_directed (h : ¬Misdirected W s) : Faithful W s (withHorizonFailover W s) := by
  by_cases hp : s.preferred (W.selectedAt 0) = s.activeServer
  case pos =>
    exact (failoverLoop_fair (fun _ => ⟨hp, List.not_mem_nil⟩) .nil nofun (Nat.zero_add n)).faithful
  case neg =>
    have ⟨hn, hq, hhead⟩ := Horizon.head_of_preferred_ne hp
    obtain ⟨left, rfl⟩ := Nat.exists_eq_succ_of_ne_zero (Nat.ne_of_gt hn)
    -- Without a failure that leads to another attempt, the endpoint does not matter.
    have hserver : (s.server (W.selectedAt 0)).activeServer = s.preferred (W.selectedAt 0) := rfl
    simp only [withHorizonFailover, failoverLoop, hserver]
    split
    case h_1 a ha =>
      refine (Fair.last rfl List.not_mem_nil (fun i => ?_) fun _ he => ?_).faithful
      · simp [quarantineOf_cons, Invocation.failed, ha, Horizon.server]
      · cases he
    case h_2 e ha =>
      split
      case isFalse hr => exact (h ⟨hq, _, hhead, e, ha, not_not.mp hr⟩).elim
      case isTrue hr =>
        refine (Fair.last rfl List.not_mem_nil (fun i => ?_) fun e' he hr' => ?_).faithful
        · simp [quarantineOf_cons, Invocation.failed, ha, hr, Horizon.server]
        · cases he
          exact (hr hr').elim

-- An endpoint that is available has not been quarantined since it was selected.
theorem Horizon.get?_of_available {i attempt : Nat} (h : i ∈ s.available (W.selectedAt attempt)) :
    s.failedUntil.get? i ≠ some (W.failedAt attempt + 30000) := by
  intro hg
  have hq := ((s.mem_available).mp h).2
  have hle := W.selected_le attempt
  simp only [quarantined, hg, Option.getD_some, decide_eq_false_iff_not] at hq
  exact hq (Int.lt_of_le_of_lt hle (Int.lt_add_of_pos_right _ (by decide)))

theorem not_faithful_of_misdirected (h : Misdirected W s) : ¬Faithful W s (withHorizonFailover W s) := by
  intro hf
  obtain ⟨hq, i, hhead, e, ha, hr⟩ := h
  have hi : i ∈ s.available (W.selectedAt 0) := List.mem_of_mem_head? hhead
  have hn : 0 < n := Nat.lt_of_le_of_lt (Nat.zero_le _) ((s.mem_available).mp hi).1
  obtain ⟨left, rfl⟩ := Nat.exists_eq_succ_of_ne_zero (Nat.ne_of_gt hn)
  have hserver : (s.server (W.selectedAt 0)).activeServer = i := by
    refine (Horizon.preferred_of_quarantined hq).trans ?_
    rw [Option.mem_def.mp hhead]
    rfl
  have hne : s.activeServer ≠ i := by
    rintro rfl
    cases ((s.mem_available).mp hi).2.symm.trans hq
  have hfailed : Invocation.failed (⟨0, i, W.answer 0 i⟩ : Invocation α) = true := by
    simp [Invocation.failed, ha, hr]
  simp only [withHorizonFailover, failoverLoop, hserver] at hf
  split at hf
  case h_1 a ha' => cases ha.symm.trans ha'
  case h_2 e' ha' =>
    cases ha.symm.trans ha'
    rw [if_neg (not_not.mpr hr)] at hf
    split at hf
    case h_1 =>
      have hquar := hf.quarantines i
      rw [quarantineOf_cons, if_pos ⟨rfl, hfailed⟩] at hquar
      exact Horizon.get?_of_available hi <| (OrderedMap.get?_set_ne _ hne).symm.trans hquar
    case h_2 j hnext =>
      have hrest := @failoverLoop_fair _ _ W _ _ left _ (some e)
        (fun _ => ⟨Horizon.rotate_preferred hnext (W.scanned_le 0 j), Horizon.next_not_mem hnext⟩)
        (List.Nodup.insert .nil) (by simpa using s.inRange hn) (Nat.one_add left)
      have hquar := hf.quarantines i
      rw [quarantineOf_cons, if_pos ⟨rfl, hfailed⟩] at hquar
      have hnot := (List.nodup_cons.mp hf.once).1
      have hrestq := hrest.quarantines i
      rw [quarantineOf_eq_none hnot] at hrestq
      exact Horizon.get?_of_available hi <|
        (OrderedMap.get?_set_ne _ hne).symm.trans <| hrestq.symm.trans hquar

end

-- Whatever has happened before, a call is as it should be if and only if the active endpoint is not passed over
-- for one that turns out to fail.
theorem failover_faithful (Ws : List (Attempts α)) (W : Attempts α) :
    Faithful W (afterCalls Ws ({} : Horizon n)) (withHorizonFailover W (afterCalls Ws {})) ↔
      ¬Misdirected W (afterCalls Ws ({} : Horizon n)) :=
  ⟨fun h hm => not_faithful_of_misdirected hm h, faithful_of_directed⟩

-- Both endpoints fail, and the first one is available again when the second one is not.

def unavailable : HorizonError :=
  ⟨some 503, "Service Unavailable"⟩

def failingAt (start : Nat) : Attempts String where
  selectedAt  := fun attempt => start + 10 * attempt
  answer      := fun _ _ => .error unavailable
  failedAt    := fun attempt => start + 10 * attempt
  scannedAt   := fun attempt _ => start + 10 * attempt
  selected_le := fun _ => Int.le_refl _
  failed_le   := fun _ _ => Int.le_refl _
  scanned_le  := fun attempt _ => by
    show (start : Int) + 10 * attempt ≤ start + 10 * ↑(attempt + 1)
    omega

-- The first endpoint is tried twice, and the second one is blamed for it.
theorem failover_unfaithful :
    (withHorizonFailover (failingAt 30005) (afterCalls [failingAt 0] ({} : Horizon 2))).invocations.map
      (·.endpoint) = [0, 0] ∧
    ¬Faithful (failingAt 30005) (afterCalls [failingAt 0] ({} : Horizon 2))
      (withHorizonFailover (failingAt 30005) (afterCalls [failingAt 0] {})) := by
  have hi : (withHorizonFailover (failingAt 30005) (afterCalls [failingAt 0] ({} : Horizon 2))).invocations.map
      (·.endpoint) = [0, 0] := by
    decide
  refine ⟨hi, fun h => ?_⟩
  have ho := h.once
  rw [hi] at ho
  exact absurd ho (by decide)

end Mergepay.Stellar
