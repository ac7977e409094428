import Mergepay.Concurrency.Session

namespace Concurrency

variable {σ Act : Type} {Res : Act → Type} {ε χ η ι α β : Type}

-- Whenever a program is about to perform an action, its previous actions and that one are related.
def Prog.Performs (R : Log Act Res ε → Act → Prop) (p : Prog Act Res ε α) : Prop :=
  ∀ l a k, p.After l (call a k) → R l a

namespace Prog.Performs

variable {R : Log Act Res ε → Act → Prop} {p : Prog Act Res ε α} {f : α → Prog Act Res ε β}

theorem done (v : α) : (done v : Prog Act Res ε α).Performs R :=
  fun _ _ _ h => by cases h.of_done.2

theorem fail (e : ε) : (fail e : Prog Act Res ε α).Performs R :=
  fun _ _ _ h => by cases h.of_fail.2

theorem perform (h : R [] a) : (perform a : Prog Act Res ε (Res a)).Performs R := by
  intro l b k hb
  cases hb with
  | nil => exact h
  | @cons _ r _ _ _ hb =>
    cases r with
    | ok v    => cases hb.of_done.2
    | error e => cases hb.of_fail.2

theorem bind (hp : p.Performs R)
    (hf : ∀ l v, p.After l (.done v) → (f v).Performs fun l' a => R (l ++ l') a) :
    (p.bind f).Performs R := by
  intro l a k h
  rcases h.bind_call with ⟨_, h⟩ | ⟨l₁, l₂, v, rfl, h₁, h₂⟩
  case inl => exact hp _ _ _ h
  case inr => exact hf l₁ v h₁ l₂ a k h₂

theorem attempt (hp : p.Performs R) : p.attempt.Performs R := by
  intro l a k h
  have ⟨_, h⟩ := h.attempt_call
  exact hp _ _ _ h

theorem swallow (hp : p.Performs R) : p.swallow.Performs R :=
  bind (attempt hp) fun _ _ _ => done ()

-- What has been done before does not matter to what is known already.
theorem forEach {f : β → Prog Act Res ε Unit} {bs : List β} (hR : ∀ l l' a, R l' a → R (l ++ l') a)
    (h : ∀ b ∈ bs, (f b).Performs R) : (forEach f bs).Performs R := by
  induction bs with
  | nil => exact done ()
  | cons b bs hi =>
    have ⟨hb, hbs⟩ := List.forall_mem_cons.mp h
    exact bind hb fun l _ _ l' a k ha => hR l l' a (hi hbs l' a k ha)

theorem mono {R' : Log Act Res ε → Act → Prop} (hp : p.Performs R) (h : ∀ l a, R l a → R' l a) :
    p.Performs R' :=
  fun l a k ha => h l a (hp l a k ha)

-- The actions of a transaction, and its commit.
theorem transaction {i : ι} {R : Log (Database.Step ι Act Res ε) Database.Step.Answer ε →
      Database.Step ι Act Res ε → Prop}
    (ha : ∀ l log a k, p.After log (.call a k) → R l (.act i log a))
    (hc : ∀ l log v, p.After log (.done v) → R l (.commit i log)) :
    (p.transaction i []).Performs R := by
  have rest {q : Prog Act Res ε α} {log : Log Act Res ε} {l₀} (hq : p.After log q) :
      (q.transaction i log).Performs fun l a => R (l₀ ++ l) a := by
    induction q generalizing log l₀ with
    | fail e => exact fail e
    | done v =>
      intro l a k h
      cases h with
      | nil => exact hc _ log v hq
      | @cons _ r _ _ _ h =>
        cases r with
        | ok _    => cases h.of_done.2
        | error e => cases h.of_fail.2
    | call a k hi =>
      intro l b k' h
      cases h with
      | nil => exact ha _ log a k hq
      | @cons _ r l _ _ h =>
        have hr : R (l₀ ++ [⟨.act i log a, r⟩] ++ l) b := hi r (hq.snoc r) l b k' h
        rwa [List.append_assoc] at hr
  exact @rest _ _ [] .nil

end Prog.Performs

namespace System

-- The same system, where the actions that have been performed are written down along with their answers.
def traced (S : System σ Act Res ε χ η ι) : System (σ × Log Act Res ε) Act Res ε χ η ι where
  exec  := fun a x s => (S.exec a x s.1).map fun (r, s') => (r, (s', s.2 ++ [⟨a, r⟩]))
  env   := fun e s => (S.env e s.1).map fun s' => (s', s.2)
  entry := S.entry

end System

def Config.untraced (c : Config (σ × Log Act Res ε) Act Res ε) : Config σ Act Res ε :=
  ⟨c.shared.1, c.procs⟩

namespace System

variable {S : System σ Act Res ε χ η ι} {C : Act → σ → Prop}
  {c c₁ c₂ : Config (σ × Log Act Res ε) Act Res ε} {l : Label χ η ι}

theorem next_untraced (h : S.traced.next l c₁ = some c₂) : S.next l c₁.untraced = some c₂.untraced := by
  cases l <;> simp only [next, Option.some.injEq] at h ⊢
  case spawn | crash => exact h ▸ rfl
  case env e =>
    obtain ⟨s, hx, h⟩ := Option.map_eq_some_iff.mp h
    obtain ⟨s', hx', hs⟩ := Option.map_eq_some_iff.mp hx
    subst hs
    subst h
    exact Option.map_eq_some_iff.mpr ⟨s', hx', rfl⟩
  case act n x =>
    simp only [Config.untraced]
    split at h
    case h_2 => contradiction
    case h_1 a k hp =>
      obtain ⟨⟨r, s⟩, hx, h⟩ := Option.map_eq_some_iff.mp h
      obtain ⟨⟨r', s'⟩, hx', hs⟩ := Option.map_eq_some_iff.mp hx
      cases hs
      subst h
      exact Option.map_eq_some_iff.mpr ⟨(r, s'), hx', rfl⟩

theorem meets_untraced (m : c.Meets (fun a s => C a s.1) l) : c.untraced.Meets C l := by
  cases l with
  | spawn | crash | env => trivial
  | act n x =>
    intro p hp
    cases p with
    | done | fail => trivial
    | call a k    => exact m (.call a k) hp

end System

namespace Protocol

variable {S : System σ Act Res ε χ η ι} (P : Protocol S)

-- An answer that has been given at some point.
def Given (e : Entry Act Res ε) (s : σ) : Prop :=
  ∃ s₁ x s₂, P.inv s₁ ∧ P.cond e.action s₁ ∧ S.exec e.action x s₁ = some (e.answer, s₂) ∧
    S.Evolves P.cond s₂ s

-- What a process has done so far is found in the trace.
inductive Recalls (s : σ × Log Act Res ε) : Prog Act Res ε Unit → Prop
  | crashed : Recalls s (.done ())
  | running {p : Prog Act Res ε Unit} : (S.entry i).After l p → (∀ e ∈ l, e ∈ s.2 ∧ P.Given e s.1) →
    Recalls s p

variable {P} {C : Act → σ → Prop} {c c₁ c₂ : Config (σ × Log Act Res ε) Act Res ε}
  {l : Label χ η ι} {s s' : σ × Log Act Res ε}

theorem Given.later {e : Entry Act Res ε} {s s' : σ} (h : P.Given e s) (he : S.Evolves P.cond s s') :
    P.Given e s' :=
  have ⟨s₁, x, s₂, hi, hc, hx, hs⟩ := h
  ⟨s₁, x, s₂, hi, hc, hx, hs.trans he⟩

theorem Recalls.later {p : Prog Act Res ε Unit} (h : P.Recalls s p) (ht : ∀ e ∈ s.2, e ∈ s'.2)
    (he : S.Evolves P.cond s.1 s'.1) : P.Recalls s' p := by
  cases h with
  | crashed      => exact .crashed
  | running h hl => exact .running h fun e hm => ⟨ht e (hl e hm).1, (hl e hm).2.later he⟩

section

variable (hc : ∀ a s, C a s → P.due a s → P.cond a s) (hs : ∀ i, P.Sound (S.entry i))
include hc hs

omit hs in
theorem recalls_next (hh : P.Holds c₁.untraced) (h : ∀ p ∈ c₁.procs, P.Recalls c₁.shared p)
    (m : c₁.Meets (fun a s => C a s.1) l) (hn : S.traced.next l c₁ = some c₂) :
    ∀ p ∈ c₂.procs, P.Recalls c₂.shared p := by
  have hm : c₁.untraced.Meets P.cond l := hh.meets_due hc (System.meets_untraced m)
  cases l <;> simp only [System.next, Option.some.injEq] at hn
  case spawn i =>
    subst hn
    intro p hp
    rcases List.mem_append.mp hp with hp | hp
    case inl => exact h p hp
    case inr =>
      cases List.mem_singleton.mp hp
      exact .running .nil (by simp)
  case crash =>
    subst hn
    intro p hp
    rcases List.mem_or_eq_of_mem_set hp with hp | rfl
    case inl => exact h p hp
    case inr => exact .crashed
  case env e =>
    obtain ⟨s, hx, hn⟩ := Option.map_eq_some_iff.mp hn
    obtain ⟨s', hx', hs⟩ := Option.map_eq_some_iff.mp hx
    subst hs
    subst hn
    exact fun p hp => (h p hp).later (fun _ he => he) (.env .refl hx')
  case act n x =>
    split at hn
    case h_2 => contradiction
    case h_1 a k hp =>
      obtain ⟨⟨r, s⟩, hx, hn⟩ := Option.map_eq_some_iff.mp hn
      obtain ⟨⟨r', s'⟩, hx', hs⟩ := Option.map_eq_some_iff.mp hx
      cases hs
      subst hn
      have hcond : P.cond a c₁.shared.1 := hm _ hp
      have he := System.Evolves.refl.act hcond hx'
      have hlater {p : Prog Act Res ε Unit} (h : P.Recalls c₁.shared p) :
          P.Recalls (s', c₁.shared.2 ++ [⟨a, r⟩]) p :=
        h.later (fun _ he => List.mem_append_left _ he) he
      intro p hm
      rcases List.mem_or_eq_of_mem_set hm with hm | rfl
      case inl => exact hlater (h p hm)
      case inr =>
        generalize hq : Prog.call a k = q at hp
        cases hlater (h q (List.mem_of_getElem? hp)) with
        | crashed => cases hq
        | running ha hl =>
          subst hq
          refine .running (ha.snoc r) fun e hm => ?_
          rcases List.mem_append.mp hm with hm | hm
          case inl => exact hl e hm
          case inr =>
            cases List.mem_singleton.mp hm
            exact ⟨by simp, c₁.shared.1, x, s', hh.inv, hcond, hx', .refl⟩

-- In every run, a process has done what its program does, and the trace is a witness of it.
theorem recalls_run {s : σ} (hi : P.inv s) (r : S.traced.Run (fun a s => C a s.1) ⟨(s, []), []⟩ c) :
    P.Holds c.untraced ∧ ∀ p ∈ c.procs, P.Recalls c.shared p := by
  induction r with
  | refl => exact ⟨.init hi, by simp⟩
  | step _ m hn h =>
    refine ⟨h.1.next hs (h.1.meets_due hc (System.meets_untraced m)) (System.next_untraced hn), ?_⟩
    exact recalls_next hc h.1 h.2 m hn

end

end Protocol
end Concurrency
