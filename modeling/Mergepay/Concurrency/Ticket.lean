import Mathlib.Logic.Function.Basic
import Mergepay.Concurrency.System

namespace Concurrency

variable {σ Act : Type} {Res : Act → Type} {ε χ η ι τ α β : Type}

-- Tickets are handed to processes by the answers to their actions. A process has at most one ticket at
-- a time, and does not share it. `uses` is the ticket that has to be held in order to perform an
-- action, and `holds` is the one that is held thereafter.
structure Tickets (Act : Type) (Res : Act → Type) (ε τ : Type) where
  uses  : Act → Option τ
  holds : (a : Act) → Except ε (Res a) → Option τ → Option τ

namespace Tickets

variable (K : Tickets Act Res ε τ)

-- A program only uses the ticket that it holds. It ends with `Q` if it returns and with `E` if it
-- raises.
def Carries : Prog Act Res ε α → (α → Option τ → Prop) → (ε → Option τ → Prop) → Option τ → Prop
  | .done a,   Q, _, h => Q a h
  | .fail e,   _, E, h => E e h
  | .call a k, Q, E, h => (∀ t ∈ K.uses a, h = some t) ∧ ∀ r, Carries (k r) Q E (K.holds a r h)

abbrev Fair (p : Prog Act Res ε α) (h : Option τ) : Prop :=
  K.Carries p (fun _ _ => True) (fun _ _ => True) h

variable {K} {Q Q' : α → Option τ → Prop} {E E' : ε → Option τ → Prop} {h : Option τ}

namespace Carries

theorem mono {p : Prog Act Res ε α} (hp : K.Carries p Q E h) (hq : ∀ a h, Q a h → Q' a h)
    (he : ∀ e h, E e h → E' e h) : K.Carries p Q' E' h := by
  induction p generalizing h with
  | done a       => exact hq a h hp
  | fail e       => exact he e h hp
  | call a k ih => exact ⟨hp.1, fun r => ih r (hp.2 r)⟩

theorem bind {p : Prog Act Res ε α} {f : α → Prog Act Res ε β} {Q : β → Option τ → Prop}
    (hp : K.Carries p (fun a => K.Carries (f a) Q E) E h) : K.Carries (p.bind f) Q E h := by
  induction p generalizing h with
  | done a       => exact hp
  | fail e       => exact hp
  | call a k ih => exact ⟨hp.1, fun r => ih r (hp.2 r)⟩

theorem attempt {p : Prog Act Res ε α} {Q : Except ε α → Option τ → Prop}
    (hp : K.Carries p (fun a => Q (.ok a)) (fun e => Q (.error e)) h) :
    K.Carries p.attempt Q E h := by
  induction p generalizing h with
  | done a       => exact hp
  | fail e       => exact hp
  | call a k ih => exact ⟨hp.1, fun r => ih r (hp.2 r)⟩

theorem perform {a : Act} {Q : Res a → Option τ → Prop} (hu : ∀ t ∈ K.uses a, h = some t)
    (hq : ∀ v, Q v (K.holds a (.ok v) h)) (he : ∀ e, E e (K.holds a (.error e) h)) :
    K.Carries (.perform a) Q E h := by
  refine ⟨hu, fun r => ?_⟩
  cases r with
  | ok v    => exact hq v
  | error e => exact he e

theorem ofExcept {x : Except ε α} (hq : ∀ a, Q a h) (he : ∀ e, E e h) :
    K.Carries (.ofExcept x) Q E h := by
  cases x with
  | ok a    => exact hq a
  | error e => exact he e

theorem fair {p : Prog Act Res ε α} (hp : K.Carries p Q E h) : K.Fair p h :=
  hp.mono (fun _ _ _ => trivial) (fun _ _ _ => trivial)

end Carries

-- Which tickets are valid is determined by the shared state. A ticket only ceases to be valid by being
-- used, and one that is handed out was not valid before. The law is what is kept by all actions whose
-- tickets are valid.
structure Issued (K : Tickets Act Res ε τ) (S : System σ Act Res ε χ η ι) (Valid : τ → σ → Prop)
    (law : σ → Prop) : Prop where
  exec {a : Act} {x : χ} {s s' : σ} {r : Except ε (Res a)} : law s → (∀ t ∈ K.uses a, Valid t s) →
    S.exec a x s = some (r, s') → law s'
  keep {a : Act} {x : χ} {s s' : σ} {r : Except ε (Res a)} : S.exec a x s = some (r, s') →
    ∀ t, Valid t s → t ∉ K.uses a → Valid t s'
  give {a : Act} {x : χ} {s s' : σ} {r : Except ε (Res a)} {h : Option τ} : law s →
    S.exec a x s = some (r, s') → (∀ t ∈ K.uses a, h = some t) → (∀ t ∈ h, Valid t s) →
      ∀ t ∈ K.holds a r h, Valid t s' ∧ (t ∈ h ∨ ¬Valid t s)
  env {e : η} {s s' : σ} : law s → S.env e s = some s' → law s' ∧ ∀ t, Valid t s → Valid t s'

-- Every process uses only the ticket that it holds, and no ticket is held by two of them.
structure Exclusive (K : Tickets Act Res ε τ) (Valid : τ → σ → Prop) (law : σ → Prop)
    (held : Nat → Option τ) (c : Config σ Act Res ε) : Prop where
  law    : law c.shared
  fair   : ∀ n p, c.procs[n]? = some p → K.Fair p (held n)
  unique : ∀ n m, ∀ t ∈ held n, t ∈ held m → n = m
  valid  : ∀ n, ∀ t ∈ held n, Valid t c.shared

namespace Exclusive

variable {S : System σ Act Res ε χ η ι} {Valid : τ → σ → Prop} {law : σ → Prop}
  {held : Nat → Option τ} {C : Act → σ → Prop} {c c₁ c₂ : Config σ Act Res ε} {s : σ} {a : Act}
  {k : Except ε (Res a) → Prog Act Res ε Unit} {x : χ} {r : Except ε (Res a)} {n m : Nat}

theorem init (h : law s) :
    K.Exclusive Valid law (fun _ => none) ⟨s, ([] : List (Prog Act Res ε Unit))⟩ where
  law    := h
  fair   := by simp
  unique := by simp
  valid  := by simp

theorem holder (h : K.Exclusive Valid law held c) (hp : c.procs[n]? = some (.call a k)) :
    ∀ t ∈ K.uses a, held n = some t :=
  (h.fair n _ hp).1

theorem act (hi : K.Issued S Valid law) (h : K.Exclusive Valid law held c)
    (hp : c.procs[n]? = some (.call a k)) (hx : S.exec a x c.shared = some (r, s)) :
    K.Exclusive Valid law (Function.update held n (K.holds a r (held n))) ⟨s, c.procs.set n (k r)⟩ := by
  have hu := h.holder hp
  have given := hi.give h.law hx hu (h.valid n)
  -- A ticket that has just been handed out is not held by anybody else.
  have own : ∀ m t, m ≠ n → t ∈ K.holds a r (held n) → t ∉ held m := fun m t hm ht ht' => by
    rcases (given t ht).2 with ht₀ | ht₀
    case inl => exact hm (h.unique m n t ht' ht₀)
    case inr => exact ht₀ (h.valid m t ht')
  refine ⟨?_, fun m p hm => ?_, fun m₁ m₂ t h₁ h₂ => ?_, fun m t ht => ?_⟩
  · exact hi.exec h.law (fun t ht => h.valid n t (hu t ht)) hx
  · by_cases he : m = n
    case pos =>
      subst he
      have hlt : m < c.procs.length := (List.getElem?_eq_some_iff.mp hp).1
      rw [List.getElem?_set_self hlt, Option.some.injEq] at hm
      rw [Function.update_self, ← hm]
      exact (h.fair m _ hp).2 r
    case neg =>
      rw [List.getElem?_set_ne (Ne.symm he)] at hm
      rw [Function.update_of_ne he]
      exact h.fair m p hm
  · by_cases he₁ : m₁ = n <;> by_cases he₂ : m₂ = n
    · exact he₁.trans he₂.symm
    · rw [he₁, Function.update_self] at h₁
      rw [Function.update_of_ne he₂] at h₂
      exact (own m₂ t he₂ h₁ h₂).elim
    · rw [Function.update_of_ne he₁] at h₁
      rw [he₂, Function.update_self] at h₂
      exact (own m₁ t he₁ h₂ h₁).elim
    · rw [Function.update_of_ne he₁] at h₁
      rw [Function.update_of_ne he₂] at h₂
      exact h.unique m₁ m₂ t h₁ h₂
  · by_cases he : m = n
    case pos =>
      rw [he, Function.update_self] at ht
      exact (given t ht).1
    case neg =>
      rw [Function.update_of_ne he] at ht
      refine hi.keep hx t (h.valid m t ht) fun hut => he ?_
      exact h.unique m n t ht (hu t hut)

theorem next {l : Label χ η ι} (hi : K.Issued S Valid law) (hs : ∀ i, K.Fair (S.entry i) none)
    (h : K.Exclusive Valid law held c₁) (hn : S.next l c₁ = some c₂) :
    ∃ held', K.Exclusive Valid law held' c₂ := by
  cases l <;> simp only [System.next, Option.some.injEq] at hn
  case spawn i =>
    subst hn
    -- Nothing is held by a process that has not been started yet.
    refine ⟨Function.update held c₁.procs.length none, h.law, fun n p hp => ?_, fun n m t h₁ h₂ => ?_,
      fun n t ht => ?_⟩
    · by_cases he : n = c₁.procs.length
      case pos =>
        subst he
        rw [List.getElem?_concat_length, Option.some.injEq] at hp
        rw [Function.update_self, ← hp]
        exact hs i
      case neg =>
        rw [Function.update_of_ne he]
        have hlt : n < c₁.procs.length := by
          have hlt := (List.getElem?_eq_some_iff.mp hp).1
          simp only [List.length_append, List.length_singleton] at hlt
          omega
        rw [List.getElem?_append_left hlt] at hp
        exact h.fair n p hp
    · simp only [Function.update_apply] at h₁ h₂
      split at h₁ <;> split at h₂
      case isFalse.isFalse => exact h.unique n m t h₁ h₂
      all_goals simp_all
    · simp only [Function.update_apply] at ht
      split at ht
      case isTrue  => cases ht
      case isFalse => exact h.valid n t ht
  case crash n =>
    subst hn
    refine ⟨held, h.law, fun m p hp => ?_, h.unique, h.valid⟩
    by_cases he : m = n
    case pos =>
      subst he
      have hm := List.mem_of_getElem? hp
      rw [List.getElem?_set] at hp
      split at hp
      case isFalse => contradiction
      case isTrue =>
        split at hp
        case isFalse => cases hp
        case isTrue =>
          cases hp
          trivial
    case neg =>
      rw [List.getElem?_set_ne (Ne.symm he)] at hp
      exact h.fair m p hp
  case env e =>
    obtain ⟨s, hx, hn⟩ := Option.map_eq_some_iff.mp hn
    subst hn
    obtain ⟨hl, hk⟩ := hi.env h.law hx
    exact ⟨held, hl, h.fair, h.unique, fun n t ht => hk t (h.valid n t ht)⟩
  case act n x =>
    split at hn
    case h_2 => contradiction
    case h_1 a k hp =>
      obtain ⟨⟨r, s⟩, hx, hn⟩ := Option.map_eq_some_iff.mp hn
      subst hn
      exact ⟨_, h.act hi hp hx⟩

theorem run (hi : K.Issued S Valid law) (hs : ∀ i, K.Fair (S.entry i) none)
    (h : K.Exclusive Valid law held c₁) (r : S.Run C c₁ c₂) : ∃ held', K.Exclusive Valid law held' c₂ := by
  induction r with
  | refl => exact ⟨held, h⟩
  | step _ _ hn ih =>
    have ⟨_, h⟩ := ih
    exact h.next hi hs hn

-- Two processes are never about to use the same ticket.
theorem eq_of_uses {b : Act} {k' : Except ε (Res b) → Prog Act Res ε Unit} {t : τ}
    (h : K.Exclusive Valid law held c) (hn : c.procs[n]? = some (.call a k))
    (hm : c.procs[m]? = some (.call b k')) (ha : t ∈ K.uses a) (hb : t ∈ K.uses b) : n = m :=
  h.unique n m t (h.holder hn t ha) (h.holder hm t hb)

theorem meets {l : Label χ η ι} (h : K.Exclusive Valid law held c) (m : c.Meets C l) :
    c.Meets (fun a s => C a s ∧ ∀ t ∈ K.uses a, Valid t s) l := by
  cases l
  case spawn | crash | env => trivial
  case act n x =>
    intro p hp
    cases p with
    | done | fail => trivial
    | call a k    => exact ⟨m _ hp, fun t ht => h.valid n t (h.holder hp t ht)⟩

-- In a run, tickets are only used as long as they are valid.
theorem valid_run (hi : K.Issued S Valid law) (hs : ∀ i, K.Fair (S.entry i) none)
    (h : K.Exclusive Valid law held c₁) (r : S.Run C c₁ c₂) :
    S.Run (fun a s => C a s ∧ ∀ t ∈ K.uses a, Valid t s) c₁ c₂ :=
  r.strengthen fun _ _ r m =>
    have ⟨_, h⟩ := h.run hi hs r
    h.meets m

end Exclusive
end Tickets
end Concurrency
