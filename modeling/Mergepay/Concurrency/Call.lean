import Mathlib.Logic.Basic
import Mergepay.Concurrency.Report

section

variable {α : Type}

-- A sequence of edges of a graph, each of which starts where the previous one ends.
inductive Trail (R : α → α → Prop) : α → List (α × α) → α → Prop
  | nil  : Trail R a [] a
  | cons : R a b → Trail R b l c → Trail R a ((a, b) :: l) c

namespace Trail

variable {R : α → α → Prop} {a b c : α} {l l₁ l₂ : List (α × α)}

theorem single (h : R a b) : Trail R a [(a, b)] b :=
  .cons h .nil

theorem append (h₁ : Trail R a l₁ b) (h₂ : Trail R b l₂ c) : Trail R a (l₁ ++ l₂) c := by
  induction h₁ with
  | nil        => exact h₂
  | cons h _ hi => exact .cons h (hi h₂)

-- There is no way out of where no edge starts.
theorem of_terminal (ha : ∀ b, ¬R a b) (h : Trail R a l c) : l = [] ∧ c = a := by
  cases h with
  | nil      => exact ⟨rfl, rfl⟩
  | cons h _ => exact (ha _ h).elim

end Trail

end

namespace Concurrency

variable {σ Act : Type} {Res : Act → Type} {ε χ η ι α ρ : Type}

-- A system whose steps change a state along the edges of a graph, and record every change.
theorem System.trail_of_run {S : System σ Act Res ε χ η ι} {C : Act → σ → Prop}
    {R : α → α → Prop} {f : σ → Option α} {K : List (α × α) → σ → Prop}
    {c c' : Config σ Act Res ε}
    (hs : ∀ c₁ c₂ (l : Label χ η ι), S.Run C c c₁ → c₁.Meets C l → S.next l c₁ = some c₂ →
      ∀ a edges, f c₁.shared = some a → K edges c₁.shared → ∃ b, f c₂.shared = some b ∧
        (b = a ∧ K edges c₂.shared ∨ R a b ∧ K (edges ++ [(a, b)]) c₂.shared))
    (r : S.Run C c c') (ha : f c.shared = some a) (hk : K [] c.shared) :
    ∃ b edges, f c'.shared = some b ∧ K edges c'.shared ∧ Trail R a edges b := by
  induction r with
  | refl => exact ⟨a, [], ha, hk, .nil⟩
  | step r m hn hi =>
    have ⟨b, edges, hb, hk, ht⟩ := hi
    have ⟨b', hb', h⟩ := hs _ _ _ r m hn b edges hb hk
    rcases h with ⟨rfl, hk'⟩ | ⟨hr, hk'⟩
    case inl => exact ⟨b', edges, hb', hk', ht⟩
    case inr => exact ⟨b', edges ++ [(b, b')], hb', hk', ht.append (.single hr)⟩

namespace Database

variable (D : Database σ Act Res ε χ)

-- Any number of calls, each of which is a single transaction whose result is reported to the caller.
def calls (env : η → σ → Option σ) (body : ι → Prog Act Res ε ρ) :
    System (Observed σ ι ρ) (Reported (Step ι Act Res ε) ι ρ) (Reported.Answer Step.Answer) ε χ η ι :=
  (D.server env fun _ => .done ()).reporting fun i => (body i).transaction i []

-- How far a call has got.
inductive Calling (body : ι → Prog Act Res ε ρ) :
    Prog (Reported (Step ι Act Res ε) ι ρ) (Reported.Answer Step.Answer) ε Unit → Prop
  | done : Calling body (.done ())
  | fail : Calling body (.fail e)
  | running : (body i).After log p → Calling body ((p.transaction i log).reporting i)
  | committed : Calling body (.call (.report i r) fun _ => .done ())

-- A step by which a call obtains its result.
def Obtains (l : Label χ η ι)
    (c : Config (Observed σ ι ρ) (Reported (Step ι Act Res ε) ι ρ) (Reported.Answer Step.Answer) ε)
    (i : ι) (v : ρ) : Prop :=
  ∃ n x, l = .act n x ∧ c.procs[n]?.bind Prog.result = some (i, v)

variable {D} {env : η → σ → Option σ} {body : ι → Prog Act Res ε ρ} {l : Label χ η ι}
  {c c₁ c₂ : Config (Observed σ ι ρ) (Reported (Step ι Act Res ε) ι ρ) (Reported.Answer Step.Answer) ε}
  {C : Reported (Step ι Act Res ε) ι ρ → Observed σ ι ρ → Prop}

-- What a single step does. A result is obtained by nothing but a commit.
inductive CallStep (D : Database σ Act Res ε χ) (env : η → σ → Option σ) (body : ι → Prog Act Res ε ρ)
    (C : Reported (Step ι Act Res ε) ι ρ → Observed σ ι ρ → Prop) (l : Label χ η ι)
    (c₁ c₂ : Config (Observed σ ι ρ) (Reported (Step ι Act Res ε) ι ρ)
      (Reported.Answer Step.Answer) ε) : Prop
  | idle : c₂.shared.state = c₁.shared.state → (∀ i v, ¬Obtains l c₂ i v) → CallStep D env body C l c₁ c₂
  | env : env e c₁.shared.state = some c₂.shared.state → (∀ i v, ¬Obtains l c₂ i v) →
    CallStep D env body C l c₁ c₂
  | commit {log : Log Act Res ε} {v : ρ} : (body i).After log (.done v) →
    C (.act (.commit i log)) c₁.shared → D.admitted log c₁.shared.state = true →
    c₂.shared.state = D.view log c₁.shared.state → Obtains l c₂ i v →
    CallStep D env body C l c₁ c₂

theorem Obtains.unique {i j : ι} {v w : ρ} (h₁ : Obtains l c i v) (h₂ : Obtains l c j w) :
    i = j ∧ v = w := by
  obtain ⟨n, x, rfl, h₁⟩ := h₁
  obtain ⟨n', x', he, h₂⟩ := h₂
  cases he
  cases h₁.symm.trans h₂
  exact ⟨rfl, rfl⟩

theorem not_obtains_of (h : ∀ n x, l ≠ .act n x) (i : ι) (v : ρ) : ¬Obtains l c i v := by
  rintro ⟨n, x, he, _⟩
  exact h n x he

theorem not_obtains (hp : ∀ q ∈ (c.procs.set n p)[n]?, Prog.result q = none) (i : ι) (v : ρ) :
    ¬Obtains (.act n x : Label χ η ι) ⟨o, c.procs.set n p⟩ i v := by
  rintro ⟨n', x', he, h⟩
  cases he
  have ⟨q, hq, h⟩ := Option.bind_eq_some_iff.mp h
  rw [hp q hq] at h
  cases h

namespace Calling

variable {p : Prog (Reported (Step ι Act Res ε) ι ρ) (Reported.Answer Step.Answer) ε Unit}

theorem set (h : ∀ q ∈ c.procs, Calling body q) (hp : Calling body p) :
    ∀ q ∈ c.procs.set n p, Calling body q := by
  intro q hq
  rcases List.mem_or_eq_of_mem_set hq with hq | rfl
  case inl => exact h q hq
  case inr => exact hp

-- A call that is still in progress has not got a result.
theorem result_running {q : Prog Act Res ε ρ} {log : Log Act Res ε} {i : ι} :
    Prog.result ((q.transaction i log).reporting i) = none := by
  cases q <;> rfl

theorem next (h : ∀ p ∈ c₁.procs, Calling body p) (m : c₁.Meets C l)
    (hn : (D.calls env body).next l c₁ = some c₂) :
    (∀ p ∈ c₂.procs, Calling body p) ∧ CallStep D env body C l c₁ c₂ := by
  cases l <;> simp only [System.next, Option.some.injEq] at hn
  case spawn i =>
    subst hn
    refine ⟨fun p hp => ?_, .idle rfl <| not_obtains_of (by simp)⟩
    rcases List.mem_append.mp hp with hp | hp
    case inl => exact h p hp
    case inr =>
      cases List.mem_singleton.mp hp
      exact .running .nil
  case crash =>
    subst hn
    exact ⟨set h .done, .idle rfl <| not_obtains_of (by simp)⟩
  case env e =>
    obtain ⟨o, hx, hn⟩ := Option.map_eq_some_iff.mp hn
    subst hn
    exact ⟨h, .env (env_reporting hx).1 <| not_obtains_of (by simp)⟩
  case act n x =>
    split at hn
    case h_2 => contradiction
    case h_1 a k hp =>
      obtain ⟨⟨r, o⟩, hx, hn⟩ := Option.map_eq_some_iff.mp hn
      subst hn
      have hm : C a c₁.shared := m _ hp
      have hlt := (List.getElem?_eq_some_iff.mp hp).1
      generalize hq : Prog.call a k = q at hp
      cases h _ (List.mem_of_getElem? hp) with
      | done => cases hq
      | fail => cases hq
      | committed =>
        cases hq
        cases hx
        refine ⟨set h .done, .idle rfl <| not_obtains fun q hq => ?_⟩
        cases (List.getElem?_set_self hlt).symm.trans hq
        rfl
      | @running i log p ha =>
        cases p with
        | fail e => cases hq
        | call b k' =>
          cases hq
          have hs := (exec_act (exec_reporting hx).1).1
          refine ⟨set h (.running (ha.snoc r)), .idle hs <| not_obtains fun q hq => ?_⟩
          cases (List.getElem?_set_self hlt).symm.trans hq
          exact result_running
        | done v =>
          cases hq
          obtain ⟨had, hr⟩ := exec_commit (exec_reporting hx).1
          rcases hr with ⟨rfl, hs⟩ | ⟨e, rfl, hs, _⟩
          case inl =>
            refine ⟨set h .committed, .commit ha hm had hs ⟨n, x, rfl, ?_⟩⟩
            rw [List.getElem?_set_self hlt]
            rfl
          case inr =>
            refine ⟨set h .fail, .idle hs <| not_obtains fun q hq => ?_⟩
            cases (List.getElem?_set_self hlt).symm.trans hq
            rfl

theorem run {s : σ} (r : (D.calls env body).Run C ⟨⟨s, []⟩, []⟩ c) : ∀ p ∈ c.procs, Calling body p := by
  induction r with
  | refl            => simp
  | step _ m hn hi => exact (next hi m hn).1

end Calling

end Database
end Concurrency
