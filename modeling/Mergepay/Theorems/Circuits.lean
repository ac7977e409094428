import Mathlib.Data.List.Infix
import Mergepay.Anchors.Circuit

namespace Mergepay.Anchors

namespace CircuitOptions

variable (o : CircuitOptions)

-- The breaker of a process, after some calls.
def after (events : List CircuitEvent) : AnchorCircuitBreaker :=
  events.foldl (fun b e => (b.perform e).2) { toCircuitOptions := o }

def answer (before : List CircuitEvent) (e : CircuitEvent) : Option Bool :=
  ((o.after before).perform e).1

-- The outcomes that have been reported for a provider.
def outcomes (events : List CircuitEvent) (p : String) : List CircuitCall :=
  (events.filter fun e => e.provider = p ∧ e.call ≠ .isOpen).map (·.call)

def Succeeds (e : CircuitEvent) (p : String) : Prop :=
  e.provider = p ∧ e.call = .recordSuccess

def Opens (before : List CircuitEvent) (e : CircuitEvent) (p : String) : Prop :=
  e.provider = p ∧ e.call = .recordFailure ∧ o.answer before e = some true

-- The circuit was opened at a time, and no success has been reported since.
def OpenedAt (events : List CircuitEvent) (p : String) (t : Time) : Prop :=
  ∃ before e later, events = before ++ e :: later ∧ o.Opens before e p ∧ e.now = t ∧ ∀ e' ∈ later, ¬Succeeds e' p

-- What the breaker does for a provider, in terms of the calls alone.
structure Refines (events : List CircuitEvent) (p : String) : Prop where
  opens (before e) : before ++ [e] <+: events → o.Opens before e p →
    List.replicate o.failureThreshold .recordFailure <:+ outcomes (before ++ [e]) p
  blocks (before e) : before ++ [e] <+: events → e.provider = p → e.call = .isOpen →
    (o.answer before e = some true ↔ ∃ t, o.OpenedAt before p t ∧ e.now < t + o.cooldownMs)
  closes (before e) : before ++ [e] <+: events → Succeeds e p →
    ((o.after (before ++ [e])).get p).state = .closed ∧ ((o.after (before ++ [e])).get p).failures = 0
  reopens (before e t) : before ++ [e] <+: events → e.provider = p → e.call = .recordFailure →
    o.OpenedAt before p t → t + o.cooldownMs ≤ e.now → o.Opens before e p
  independent (before e) : before ++ [e] <+: events → e.provider = p →
    o.answer before e = o.answer (before.filter (·.provider = p)) e

-- No success is reported to a closed circuit that has counted failures, no failure to a circuit that has been open
-- for the cooldown, and no circuit opens when the clock reads zero.
def Admits (b : AnchorCircuitBreaker) (e : CircuitEvent) : Prop :=
  match e.call with
  | .recordFailure =>
    if (b.get e.provider).state = .closed then
      (b.get e.provider).failures + 1 < b.failureThreshold ∨ e.now ≠ 0
    else
      ∀ t ∈ (b.get e.provider).openedAt, e.now < t + b.cooldownMs
  | .recordSuccess => (b.get e.provider).state = .closed → (b.get e.provider).failures = 0
  | .isOpen        => True

instance (b : AnchorCircuitBreaker) : (e : CircuitEvent) → Decidable (Admits b e)
  | ⟨_, .recordFailure, _⟩ => inferInstanceAs (Decidable (ite _ _ _))
  | ⟨_, .recordSuccess, _⟩ => inferInstanceAs (Decidable (_ → _))
  | ⟨_, .isOpen, _⟩        => inferInstanceAs (Decidable True)

variable {o} {events : List CircuitEvent} {e : CircuitEvent} {p : String}

theorem after_append : o.after (events ++ [e]) = ((o.after events).perform e).2 := by
  simp [after]

@[simp]
theorem options_after : (o.after events).toCircuitOptions = o := by
  induction events using List.reverseRecOn
  case nil                => rfl
  case append_singleton hi => rw [after_append, AnchorCircuitBreaker.options_perform, hi]

theorem outcomes_append : outcomes (events ++ [e]) p =
    outcomes events p ++ if e.provider = p ∧ e.call ≠ .isOpen then [e.call] else [] := by
  by_cases h : e.provider = p ∧ e.call ≠ .isOpen <;> simp [outcomes, List.filter_append, h]

theorem openedAt_append {t : Time} :
    o.OpenedAt (events ++ [e]) p t ↔ o.Opens events e p ∧ e.now = t ∨ o.OpenedAt events p t ∧ ¬Succeeds e p := by
  constructor
  case mp =>
    intro ⟨before, e', later, he, ho, ht, hs⟩
    cases later using List.reverseRecOn with
    | nil =>
      have ⟨h₁, h₂⟩ := List.append_inj' he rfl
      obtain rfl := List.singleton_inj.mp h₂
      exact .inl ⟨h₁ ▸ ho, ht⟩
    | append_singleton later last =>
      rw [← List.cons_append, ← List.append_assoc] at he
      have ⟨h₁, h₂⟩ := List.append_inj' he rfl
      obtain rfl := List.singleton_inj.mp h₂
      exact .inr ⟨⟨before, e', later, h₁, ho, ht, fun x hx => hs x (by simp [hx])⟩, hs e (by simp)⟩
  case mpr =>
    intro h
    cases h with
    | inl h => exact ⟨events, e, [], rfl, h.1, h.2, by simp⟩
    | inr h =>
      have ⟨⟨before, e', later, he, ho, ht, hs⟩, hn⟩ := h
      refine ⟨before, e', later ++ [e], by simp [he], ho, ht, fun x hx => ?_⟩
      cases List.mem_append.mp hx with
      | inl hx => exact hs x hx
      | inr hx => exact List.mem_singleton.mp hx ▸ hn

-- What a circuit of a provider has to do with the calls so far.
structure Tracks (o : CircuitOptions) (events : List CircuitEvent) (p : String) (c : ProviderCircuit) : Prop where
  counts   : c.state = .closed → List.replicate c.failures .recordFailure <:+ outcomes events p
  unopened : c.state = .closed → ∀ t, ¬o.OpenedAt events p t
  opened   : c.state ≠ .closed → ∃ t, c.openedAt = some t ∧ t ≠ 0 ∧ ∀ t', o.OpenedAt events p t' ↔ t' = t
  cooled   : c.state = .halfOpen → ∀ t ∈ c.openedAt, ∃ e ∈ events, t + o.cooldownMs ≤ e.now

namespace Tracks

variable {c : ProviderCircuit} {now : Time}

-- A new circuit, also after a success.
theorem new (hs : c.state = .closed) (hf : c.failures = 0) (ho : ∀ t, ¬o.OpenedAt events p t) :
    Tracks o events p c where
  counts _   := hf ▸ List.nil_suffix
  unopened _ := ho
  opened h   := absurd hs h
  cooled h   := nomatch hs.symm.trans h

-- A call that changes at most the count of a circuit that is not closed.
theorem keep (ht : Tracks o events p c) {c' : ProviderCircuit} (hs : c'.state = c.state)
    (ho : c'.openedAt = c.openedAt) (hn : ¬o.Opens events e p) (hf : ¬Succeeds e p)
    (hc : c'.state = .closed → List.replicate c'.failures .recordFailure <:+ outcomes (events ++ [e]) p) :
    Tracks o (events ++ [e]) p c' := by
  have he t : o.OpenedAt (events ++ [e]) p t ↔ o.OpenedAt events p t := by
    simp [openedAt_append, hn, hf]
  constructor
  case counts   => exact hc
  case unopened => simpa only [he, hs] using ht.unopened
  case opened   => simpa only [he, hs, ho] using ht.opened
  case cooled   =>
    intro h t hm
    have ⟨e', hm, hc⟩ := ht.cooled (hs ▸ h) t (ho ▸ hm)
    exact ⟨e', List.mem_append_left _ hm, hc⟩

-- The circuit opens.
theorem opening (ht : Tracks o events p c) (hs : c.state = .closed) (ho : o.Opens events e p) (h₀ : e.now ≠ 0) :
    Tracks o (events ++ [e]) p { c with
      state := .open_, failures := c.failures + 1, openedAt := some e.now, lastFailureAt := some e.now } := by
  have hf : ¬Succeeds e p := fun hf => nomatch ho.2.1.symm.trans hf.2
  constructor
  case counts   => exact nofun
  case unopened => exact nofun
  case opened   =>
    refine fun _ => ⟨e.now, rfl, h₀, fun t => ?_⟩
    simp [openedAt_append, ho, ht.unopened hs, eq_comm]
  case cooled   => exact nofun

-- The cooldown is over.
theorem cool (ht : Tracks o events p c) {t : Time} (hs : c.state = .open_) (ho : c.openedAt = some t)
    (he : e.call = .isOpen) (hc : t + o.cooldownMs ≤ e.now) :
    Tracks o (events ++ [e]) p { c with state := .halfOpen } := by
  have hn : ¬o.Opens events e p := fun h => nomatch he.symm.trans h.2.1
  have hf : ¬Succeeds e p := fun h => nomatch he.symm.trans h.2
  constructor
  case counts   => exact nofun
  case unopened => exact nofun
  case opened   => exact fun _ => by simpa [openedAt_append, hn, hf] using ht.opened (by simp [hs])
  case cooled   =>
    intro _ t' hm
    cases Option.mem_some_iff.mp (ho ▸ hm)
    exact ⟨e, by simp, hc⟩

end Tracks

section Step

variable {now : Time}

theorem not_opens_of_success : ¬o.Opens events ⟨p, .recordSuccess, now⟩ p :=
  (nomatch ·.2.1)

theorem not_opens_of_query : ¬o.Opens events ⟨p, .isOpen, now⟩ p :=
  (nomatch ·.2.1)

theorem opens_failure : o.Opens events ⟨p, .recordFailure, now⟩ p ↔
    ((o.after events).get p).state = .closed ∧ o.failureThreshold ≤ ((o.after events).get p).failures + 1 := by
  simp only [Opens, answer, AnchorCircuitBreaker.perform, AnchorCircuitBreaker.recordFailure, options_after]
  split
  case isTrue h  => simpa [And.comm] using h
  case isFalse h => simpa [imp_not_comm, and_comm] using h

-- What is left of a circuit after a success.
theorem get_success (ha : Admits (o.after events) ⟨p, .recordSuccess, now⟩) :
    ((o.after (events ++ [⟨p, .recordSuccess, now⟩])).get p).state = .closed ∧
    ((o.after (events ++ [⟨p, .recordSuccess, now⟩])).get p).failures = 0 := by
  rw [after_append]
  by_cases hs : ((o.after events).get p).state = .closed
  case pos => simpa [AnchorCircuitBreaker.perform, AnchorCircuitBreaker.recordSuccess_closed hs, hs] using ha hs
  case neg => simp [AnchorCircuitBreaker.perform, AnchorCircuitBreaker.recordSuccess_closing hs]

theorem Tracks.success (ha : Admits (o.after events) ⟨p, .recordSuccess, now⟩) :
    Tracks o (events ++ [⟨p, .recordSuccess, now⟩]) p ((o.after (events ++ [⟨p, .recordSuccess, now⟩])).get p) := by
  have ⟨hs, hf⟩ := get_success ha
  exact .new hs hf <| by simp [openedAt_append, not_opens_of_success, Succeeds]

variable (ht : Tracks o events p ((o.after events).get p))

include ht

theorem Tracks.failure (ha : Admits (o.after events) ⟨p, .recordFailure, now⟩) :
    Tracks o (events ++ [⟨p, .recordFailure, now⟩]) p ((o.after (events ++ [⟨p, .recordFailure, now⟩])).get p) := by
  rw [after_append]
  by_cases hc : ((o.after events).get p).state = .closed ∧
    o.failureThreshold ≤ ((o.after events).get p).failures + 1
  case pos =>
    obtain ⟨hs, hf⟩ := hc
    have hr := @AnchorCircuitBreaker.recordFailure_opening _ _ now hs (by simpa using hf)
    have hn : now ≠ 0 := by simpa [Admits, hs, Nat.not_lt.mpr hf] using ha
    simpa [AnchorCircuitBreaker.perform, hr] using ht.opening hs (opens_failure.mpr ⟨hs, hf⟩) hn
  case neg =>
    have hr := @AnchorCircuitBreaker.recordFailure_counting (o.after events) p now
      fun hs => by simpa using not_and.mp hc hs
    simp only [AnchorCircuitBreaker.perform, hr, Prod.map, AnchorCircuitBreaker.get_put_self, id]
    refine ht.keep rfl rfl (hc <| opens_failure.mp ·) (by simp [Succeeds]) fun hs => ?_
    obtain ⟨l, hl⟩ := ht.counts hs
    exact ⟨l, by simp [outcomes_append, List.replicate_succ', ← hl]⟩

theorem Tracks.query : Tracks o (events ++ [⟨p, .isOpen, now⟩]) p
    ((o.after (events ++ [⟨p, .isOpen, now⟩])).get p) := by
  have hk : Tracks o (events ++ [⟨p, .isOpen, now⟩]) p ((o.after events).get p) :=
    ht.keep rfl rfl not_opens_of_query (by simp [Succeeds]) fun hs => by
      simpa [outcomes_append] using ht.counts hs
  rw [after_append]
  by_cases hs : ((o.after events).get p).state = .open_
  case pos =>
    have ⟨t, ho, h₀, _⟩ := ht.opened (by simp [hs])
    have hr := @AnchorCircuitBreaker.isOpen_opened _ _ now _ hs ho h₀
    by_cases hc : t + o.cooldownMs ≤ now
    case pos =>
      simpa [AnchorCircuitBreaker.perform, hr, hc] using ht.cool (e := ⟨p, .isOpen, now⟩) hs ho rfl hc
    case neg => simpa [AnchorCircuitBreaker.perform, hr, hc] using hk
  case neg => simpa [AnchorCircuitBreaker.perform, AnchorCircuitBreaker.isOpen_unopened hs] using hk

end Step

-- The calls that are made for a provider are admitted.
def AdmitsAll (o : CircuitOptions) (events : List CircuitEvent) (p : String) : Prop :=
  ∀ before e, before ++ [e] <+: events → e.provider = p → Admits (o.after before) e

theorem AdmitsAll.append (h : AdmitsAll o (events ++ [e]) p) :
    AdmitsAll o events p ∧ (e.provider = p → Admits (o.after events) e) :=
  ⟨fun before e hp => h before e (hp.trans (List.prefix_append _ _)), h events e List.prefix_rfl⟩

theorem AdmitsAll.of_take (h : ∀ i (hi : i < events.length), Admits (o.after (events.take i)) events[i]) :
    AdmitsAll o events p := by
  rintro before e ⟨later, rfl⟩ _
  simpa [List.append_assoc] using h before.length (by simp)

theorem tracks (h : AdmitsAll o events p) : Tracks o events p ((o.after events).get p) := by
  induction events using List.reverseRecOn
  case nil => exact .new rfl rfl (by simp [OpenedAt])
  case append_singleton events e hi =>
    have ⟨h, ha⟩ := h.append
    have hi := hi h
    by_cases hp : e.provider = p
    case pos =>
      obtain ⟨q, call, now⟩ := e
      subst hp
      cases call with
      | recordFailure => exact hi.failure (ha rfl)
      | recordSuccess => exact .success (ha rfl)
      | isOpen        => exact hi.query
    case neg =>
      rw [after_append, AnchorCircuitBreaker.get_perform_ne e hp]
      refine hi.keep rfl rfl (hp ·.1) (hp ·.1) fun hs => ?_
      simpa [outcomes_append, hp] using hi.counts hs

-- The other providers can be left out.
theorem get_filter : (o.after (events.filter (·.provider = p))).get p = (o.after events).get p := by
  induction events using List.reverseRecOn
  case nil => rfl
  case append_singleton events e hi =>
    by_cases hp : e.provider = p
    case pos =>
      subst hp
      simpa [List.filter_append, after_append] using (AnchorCircuitBreaker.perform_congr (by simp) hi).2
    case neg => simpa [List.filter_append, hp, after_append, AnchorCircuitBreaker.get_perform_ne e hp] using hi

theorem answer_query (ht : Tracks o events p ((o.after events).get p)) {now : Time} (hm : ∀ e ∈ events, e.now ≤ now) :
    o.answer events ⟨p, .isOpen, now⟩ = some true ↔ ∃ t, o.OpenedAt events p t ∧ now < t + o.cooldownMs := by
  cases hs : ((o.after events).get p).state with
  | closed =>
    have hr := @AnchorCircuitBreaker.isOpen_unopened (o.after events) p now (by simp [hs])
    simp [answer, AnchorCircuitBreaker.perform, hr, ht.unopened hs]
  | open_ =>
    obtain ⟨t, ho, h₀, hi⟩ := ht.opened (by simp [hs])
    have hr := @AnchorCircuitBreaker.isOpen_opened _ _ now _ hs ho h₀
    by_cases hc : t + o.cooldownMs ≤ now
    case pos => simp [answer, AnchorCircuitBreaker.perform, hr, hi, hc]
    case neg => simp [answer, AnchorCircuitBreaker.perform, hr, hi, hc, Int.not_le.mp hc]
  | halfOpen =>
    obtain ⟨t, ho, _, hi⟩ := ht.opened (by simp [hs])
    obtain ⟨e, he, hc⟩ := ht.cooled hs t ho
    have hr := @AnchorCircuitBreaker.isOpen_unopened (o.after events) p now (by simp [hs])
    simp [answer, AnchorCircuitBreaker.perform, hr, hi, Int.le_trans hc (hm e he)]

end CircuitOptions

open CircuitOptions

theorem circuit_refines {o : CircuitOptions} {events : List CircuitEvent} {p : String}
    (hc : events.Pairwise (·.now ≤ ·.now)) (ha : AdmitsAll o events p) : o.Refines events p := by
  have hb {before : List CircuitEvent} {e : CircuitEvent} (hp : before ++ [e] <+: events) :
      ∀ e' ∈ before, e'.now ≤ e.now := fun e' he' =>
        (List.pairwise_append.mp (hc.sublist hp.sublist)).2.2 e' he' e (List.mem_singleton_self e)
  have ht {before e} (hp : before ++ [e] <+: events) : Tracks o before p ((o.after before).get p) :=
    tracks fun _ _ h => ha _ _ (h.trans ((List.prefix_append _ _).trans hp))
  constructor
  case opens =>
    intro before ⟨q, call, now⟩ hp ho
    have ⟨hq, he, _⟩ := ho
    subst hq he
    have ⟨hs, hf⟩ := opens_failure.mp ho
    have ⟨l, hl⟩ := (ht hp).counts hs
    calc
      _ <:+ List.replicate (((o.after before).get q).failures + 1) .recordFailure :=
        (List.suffix_replicate_iff).mpr ⟨by simpa using hf, by simp⟩
      _ <:+ outcomes (before ++ [_]) q :=
        ⟨l, by simp [outcomes_append, List.replicate_succ', ← hl]⟩
  case blocks =>
    intro before ⟨q, call, now⟩ hp hq he
    subst hq he
    exact answer_query (ht hp) (hb hp)
  case closes =>
    intro before ⟨q, call, now⟩ hp ⟨hq, he⟩
    subst hq he
    exact get_success (ha _ _ hp rfl)
  case reopens =>
    intro before ⟨q, call, now⟩ t hp hq he ho hn
    subst hq he
    have hs : ((o.after before).get q).state ≠ .closed := fun hs => (ht hp).unopened hs t ho
    have ⟨t₀, h₀, _, hi⟩ := (ht hp).opened hs
    cases (hi t).mp ho
    have hl : now < t + o.cooldownMs := by simpa [Admits, hs, h₀] using ha _ _ hp rfl
    exact absurd hl (Int.not_lt.mpr hn)
  case independent =>
    intro before e hp he
    subst he
    exact ((AnchorCircuitBreaker.perform_congr (by simp) get_filter).1).symm

theorem circuit_refines_probe :
    CircuitOptions.Refines { failureThreshold := 2, cooldownMs := 10 } [⟨"anchor", .recordFailure, 1⟩,
      ⟨"anchor", .recordFailure, 2⟩, ⟨"anchor", .isOpen, 5⟩, ⟨"anchor", .isOpen, 12⟩, ⟨"anchor", .recordSuccess, 13⟩]
      "anchor" :=
  circuit_refines (by decide) (.of_take (by decide))

-- A success does not reset the count, and a failed probe leaves the circuit half-open.
theorem circuit_diverges :
    (¬CircuitOptions.Refines { failureThreshold := 2, cooldownMs := 10 }
      [⟨"anchor", .recordFailure, 1⟩, ⟨"anchor", .recordSuccess, 2⟩, ⟨"anchor", .recordFailure, 3⟩] "anchor") ∧
    ¬CircuitOptions.Refines { failureThreshold := 2, cooldownMs := 10 } [⟨"anchor", .recordFailure, 1⟩,
      ⟨"anchor", .recordFailure, 2⟩, ⟨"anchor", .isOpen, 12⟩, ⟨"anchor", .recordFailure, 13⟩] "anchor" := by
  constructor
  case left =>
    intro h
    have hl := h.opens [_, _] _ List.prefix_rfl ⟨rfl, rfl, by decide⟩
    exact absurd hl (by decide)
  case right =>
    intro h
    have ho := h.reopens [_, _, _] _ 2 List.prefix_rfl rfl rfl
      ⟨[_], _, [_], rfl, ⟨rfl, rfl, by decide⟩, rfl, by simp [Succeeds]⟩ (by decide)
    exact absurd ho.2.2 (by decide)

end Mergepay.Anchors
