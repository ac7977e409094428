import Mergepay.Concurrency.Session

namespace Concurrency

variable {σ Act : Type} {Res : Act → Type} {ε χ η ι ι' ρ : Type}

-- What a program does that hands its result to whoever has started it.
inductive Reported (Act ι ρ : Type)
  | act (a : Act)
  | report (i : ι) (r : ρ)

abbrev Reported.Answer (Res : Act → Type) : Reported Act ι ρ → Type
  | act a      => Res a
  | report _ _ => Unit

-- The shared state, along with all results that have been handed over so far.
structure Observed (σ ι ρ : Type) where
  state   : σ
  reports : List (ι × ρ) := []

def Prog.reporting (i : ι) :
    Prog Act Res ε ρ → Prog (Reported Act ι ρ) (Reported.Answer Res) ε Unit
  | done r   => call (.report i r) fun _ => done ()
  | fail e   => fail e
  | call a k => call (.act a) fun r => (k r).reporting i

-- The result that a program is about to hand over.
def Prog.result : Prog (Reported Act ι ρ) (Reported.Answer Res) ε Unit → Option (ι × ρ)
  | call (.report i r) _ => some (i, r)
  | call (.act _) _      => none
  | done _ | fail _      => none

def Reported.Meets (C : Act → σ → Prop) : Reported Act ι ρ → Observed σ ι ρ → Prop
  | act a,      o => C a o.state
  | report _ _, _ => True

instance (C : Act → σ → Prop) [∀ a s, Decidable (C a s)] :
    (a : Reported Act ι ρ) → (o : Observed σ ι ρ) → Decidable (Reported.Meets C a o)
  | .act a, o      => inferInstanceAs (Decidable (C a o.state))
  | .report _ _, _ => inferInstanceAs (Decidable True)

-- The system in which the programs `body` report their results.
def System.reporting (S : System σ Act Res ε χ η ι') (body : ι → Prog Act Res ε ρ) :
    System (Observed σ ι ρ) (Reported Act ι ρ) (Reported.Answer Res) ε χ η ι where
  exec  := fun
    | .act a, x, o      => (S.exec a x o.state).map fun (r, s) => (r, { o with state := s })
    | .report i r, _, o => some (.ok (), { o with reports := o.reports ++ [(i, r)] })
  env   := fun e o => (S.env e o.state).map fun s => { o with state := s }
  entry := fun i => (body i).reporting i

variable {S : System σ Act Res ε χ η ι'} {body : ι → Prog Act Res ε ρ} {o o' : Observed σ ι ρ}

theorem exec_reporting {a : Act} {r : Except ε (Res a)}
    (h : (S.reporting body).exec (.act a) x o = some (r, o')) :
    S.exec a x o.state = some (r, o'.state) ∧ o'.reports = o.reports := by
  have ⟨⟨r', s⟩, hx, ho⟩ := Option.map_eq_some_iff.mp h
  cases ho
  exact ⟨hx, rfl⟩

theorem env_reporting (h : (S.reporting body).env e o = some o') :
    S.env e o.state = some o'.state ∧ o'.reports = o.reports := by
  have ⟨s, hx, ho⟩ := Option.map_eq_some_iff.mp h
  cases ho
  exact ⟨hx, rfl⟩

-- Nothing that has been reported is taken back.
theorem reported_next {c₁ c₂ : Config (Observed σ ι ρ) (Reported Act ι ρ) (Reported.Answer Res) ε}
    {l : Label χ η ι} {x : ι × ρ} (hn : (S.reporting body).next l c₁ = some c₂)
    (h : x ∈ c₁.shared.reports) : x ∈ c₂.shared.reports := by
  cases l <;> simp only [System.next, Option.some.injEq] at hn
  case spawn | crash => exact hn ▸ h
  case env e =>
    obtain ⟨o, hx, hn⟩ := Option.map_eq_some_iff.mp hn
    subst hn
    exact (env_reporting hx).2 ▸ h
  case act n x =>
    split at hn
    case h_2 => contradiction
    case h_1 a k hp =>
      obtain ⟨⟨r, o⟩, hx, hn⟩ := Option.map_eq_some_iff.mp hn
      subst hn
      cases a with
      | act a      => exact (exec_reporting hx).2 ▸ h
      | report i v =>
        cases hx
        exact List.mem_append_left _ h

theorem reported_run {C : Reported Act ι ρ → Observed σ ι ρ → Prop} {x : ι × ρ}
    {c₁ c₂ : Config (Observed σ ι ρ) (Reported Act ι ρ) (Reported.Answer Res) ε}
    (r : (S.reporting body).Run C c₁ c₂) (h : x ∈ c₁.shared.reports) : x ∈ c₂.shared.reports := by
  induction r with
  | refl            => exact h
  | step _ _ hn hi => exact reported_next hn hi

namespace Protocol

variable (P : Protocol S) (Q : ι → ρ → σ → Prop)

-- A process has reported, or is on its way to a result that meets `Q`.
inductive Reporting (s : σ) : Prog (Reported Act ι ρ) (Reported.Answer Res) ε Unit → Prop
  | done : Reporting s (.done ())
  | running {p : Prog Act Res ε ρ} : P.Safe p (Q i) (fun _ _ => True) s → Reporting s (p.reporting i)

-- Whatever has been reported stays true.
structure Reports (c : Config (Observed σ ι ρ) (Reported Act ι ρ) (Reported.Answer Res) ε) : Prop where
  inv      : P.inv c.shared.state
  running  : ∀ p ∈ c.procs, P.Reporting Q c.shared.state p
  reported : ∀ i r, (i, r) ∈ c.shared.reports →
    P.Safe (.done r : Prog Act Res ε ρ) (Q i) (fun _ _ => True) c.shared.state

variable {P Q} {s s' : σ}

theorem Reporting.stable {p : Prog (Reported Act ι ρ) (Reported.Answer Res) ε Unit}
    (h : P.Reporting Q s p) (he : S.Evolves P.cond s s') : P.Reporting Q s' p := by
  cases h with
  | done      => exact .done
  | running h => exact .running (h.stable he)

namespace Reports

variable {c c₁ c₂ : Config (Observed σ ι ρ) (Reported Act ι ρ) (Reported.Answer Res) ε}
  {C : Act → σ → Prop}

theorem init (h : P.inv s) : P.Reports Q ⟨⟨s, []⟩, []⟩ where
  inv      := h
  running  := by simp
  reported := by simp

-- The other processes and the earlier reports are not affected by what one process does.
theorem set {p : Prog (Reported Act ι ρ) (Reported.Answer Res) ε Unit} (h : P.Reports Q c)
    (he : S.Evolves P.cond c.shared.state s) (hi : P.inv s) (hp : P.Reporting Q s p) :
    P.Reports Q ⟨⟨s, c.shared.reports⟩, c.procs.set n p⟩ where
  inv      := hi
  running  := fun q hq => by
    rcases List.mem_or_eq_of_mem_set hq with hq | rfl
    case inl => exact (h.running q hq).stable he
    case inr => exact hp
  reported := fun i r hr => (h.reported i r hr).stable he

theorem report {r : ρ} (h : P.Reports Q c)
    (hr : P.Safe (.done r : Prog Act Res ε ρ) (Q i) (fun _ _ => True) c.shared.state) :
    P.Reports Q ⟨⟨c.shared.state, c.shared.reports ++ [(i, r)]⟩, c.procs⟩ where
  inv      := h.inv
  running  := h.running
  reported := fun j v hv => by
    rcases List.mem_append.mp hv with hv | hv
    case inl => exact h.reported j v hv
    case inr =>
      cases List.mem_singleton.mp hv
      exact hr

variable (hc : ∀ a s, C a s → P.due a s → P.cond a s)
  (hs : ∀ i s, P.inv s → P.Safe (body i) (Q i) (fun _ _ => True) s)
include hc hs

theorem next {l : Label χ η ι} (h : P.Reports Q c₁) (m : c₁.Meets (Reported.Meets C) l)
    (hn : (S.reporting body).next l c₁ = some c₂) : P.Reports Q c₂ := by
  cases l <;> simp only [System.next, Option.some.injEq] at hn
  case spawn i =>
    subst hn
    refine ⟨h.inv, fun p hp => ?_, h.reported⟩
    rcases List.mem_append.mp hp with hp | hp
    case inl => exact h.running p hp
    case inr =>
      cases List.mem_singleton.mp hp
      exact .running (hs i _ h.inv)
  case crash =>
    subst hn
    exact h.set .refl h.inv .done
  case env e =>
    obtain ⟨o, hx, hn⟩ := Option.map_eq_some_iff.mp hn
    subst hn
    obtain ⟨he, hr⟩ := env_reporting hx
    have hg : S.Evolves P.cond c₁.shared.state o.state := .env .refl he
    exact ⟨P.env h.inv he, fun p hp => (h.running p hp).stable hg,
      fun i r hr' => (h.reported i r (hr ▸ hr')).stable hg⟩
  case act n x =>
    split at hn
    case h_2 => contradiction
    case h_1 a k hp =>
      obtain ⟨⟨r, o⟩, hx, hn⟩ := Option.map_eq_some_iff.mp hn
      subst hn
      have hm : Reported.Meets C a c₁.shared := m _ hp
      generalize hq : Prog.call a k = q at hp
      cases h.running _ (List.mem_of_getElem? hp) with
      | done => cases hq
      | @running i p hsafe =>
        cases p with
        | fail e => cases hq
        | done v =>
          cases hq
          cases hx
          have hset : P.Reports Q ⟨c₁.shared, c₁.procs.set n (.done ())⟩ := h.set .refl h.inv .done
          exact hset.report hsafe
        | call b k' =>
          cases hq
          obtain ⟨hx, hr⟩ := exec_reporting hx
          obtain ⟨hd, hk⟩ := hsafe.call h.inv
          have hb := hc b _ hm hd
          have he := System.Evolves.refl.act hb hx
          have ho : o = ⟨o.state, c₁.shared.reports⟩ := hr ▸ rfl
          rw [ho]
          exact h.set he (P.exec h.inv hb hx) (.running (hk hb x r _ hx))

theorem run (h : P.Reports Q c₁) (r : (S.reporting body).Run (Reported.Meets C) c₁ c₂) :
    P.Reports Q c₂ := by
  induction r with
  | refl           => exact h
  | step _ m hn hi => exact hi.next hc hs m hn

omit hc hs in
theorem holds {v : ρ} (h : P.Reports Q c) (hv : (i, v) ∈ c.shared.reports) : Q i v c.shared.state :=
  (h.reported i v hv).result h.inv

end Reports
end Protocol
end Concurrency
