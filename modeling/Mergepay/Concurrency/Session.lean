import Mergepay.Concurrency.Protocol
import Mergepay.Concurrency.Transaction

namespace Concurrency

variable {σ Act : Type} {Res : Act → Type} {ε χ η ι α β : Type}

-- A program whose actions are all due as such.
theorem Protocol.Fine.of_avoids {S : System σ Act Res ε χ η ι} {P : Protocol S} {B : Act → Prop}
    {p : Prog Act Res ε α} (hd : ∀ a s, P.inv s → ¬B a → P.due a s) (h : p.Avoids B) (s : σ) :
    P.Fine p s := by
  induction p generalizing s with
  | done a       => exact .done a
  | fail e       => exact .fail e
  | call a k hi =>
    exact .of_call fun s₁ _ hs₁ => ⟨hd a s₁ hs₁ h.head, fun _ _ r s₂ _ => hi r (h.rest r) s₂⟩

namespace Protocol.Holds

variable {S : System σ Act Res ε χ η ι} {P : Protocol S} {C : Act → σ → Prop}
  {c c₁ c₂ : Config σ Act Res ε} {l : Label χ η ι} (hc : ∀ a s, C a s → P.due a s → P.cond a s)
include hc

-- What a process has promised about its next action need not be required of a run.
theorem meets_due (h : P.Holds c) (m : c.Meets C l) : c.Meets P.cond l :=
  (h.owes m).mono fun a s ⟨hC, hd⟩ => hc a s hC hd

variable (hs : ∀ i, P.Sound (S.entry i))
include hs

theorem run_due (h : P.Holds c₁) (r : S.Run C c₁ c₂) : P.Holds c₂ := by
  induction r
  case refl           => exact h
  case step m hn hi => exact hi.next hs (hi.meets_due hc m) hn

theorem evolves_due (h : P.Holds c₁) (r : S.Run C c₁ c₂) :
    S.Evolves P.cond c₁.shared c₂.shared := by
  induction r
  case refl           => exact .refl
  case step r m hn hi =>
    have hc₂ := h.run_due hc hs r
    rcases hc₂.next_cases (hc₂.meets_due hc m) hn with he | ⟨e, he⟩ | ⟨a, x, v, hcond, _, hx⟩
    case inl         => exact he ▸ hi
    case inr.inl     => exact hi.env he
    case inr.inr     => exact hi.act hcond hx

end Protocol.Holds

namespace Database

variable (D : Database σ Act Res ε χ)

-- A program that runs any number of transactions, one after another. A statement on its own is a
-- transaction, too.
abbrev Session (ι Act : Type) (Res : Act → Type) (ε α : Type) :=
  Prog (Step ι Act Res ε) Step.Answer ε α

def server (env : η → σ → Option σ) (entry : ι → Session ι Act Res ε Unit) :
    System σ (Step ι Act Res ε) Step.Answer ε χ η ι where
  exec  := D.exec
  env   := env
  entry := entry

variable {D} {env : η → σ → Option σ} {entry : ι → Session ι Act Res ε Unit} {i : ι} {s s' : σ}
  {a : Act} {log : Log Act Res ε}

theorem exec_act {r : Except ε (Res a)} (h : D.exec (.act i log a) x s = some (r, s')) :
    s' = s ∧ D.admitted log s = true ∧ D.answer a x (D.view log s) = some r := by
  simp only [exec] at h
  split at h
  case isFalse => cases h
  case isTrue ha =>
    obtain ⟨v, hv, h⟩ := Option.map_eq_some_iff.mp h
    cases h
    exact ⟨rfl, ha, hv⟩

theorem exec_commit {r : Except ε Unit} (h : D.exec (.commit i log) x s = some (r, s')) :
    D.admitted log s = true ∧ ((r = .ok () ∧ s' = D.view log s) ∨
      ∃ e, r = .error e ∧ s' = s ∧ D.commit x = some (.error e)) := by
  simp only [exec] at h
  split at h
  case isFalse => cases h
  case isTrue ha =>
    obtain ⟨v, hv, h⟩ := Option.map_eq_some_iff.mp h
    cases v with
    | ok v =>
      cases h
      exact ⟨ha, .inl ⟨rfl, rfl⟩⟩
    | error e =>
      cases h
      exact ⟨ha, .inr ⟨e, rfl, rfl, hv⟩⟩

-- A protocol of a server requires `C` of its steps, and is kept by all commits that are due.
def protocol (C due : Step ι Act Res ε → σ → Prop) (inv : σ → Prop)
    (hc : ∀ i log s, inv s → C (.commit i log) s → due (.commit i log) s →
      D.admitted log s = true → inv (D.view log s))
    (he : ∀ e s s', inv s → env e s = some s' → inv s') : Protocol (D.server env entry) where
  cond := fun a s => C a s ∧ due a s
  inv  := inv
  due  := due
  exec := fun {a x s s' r} hi hd h => by
    cases a with
    | act i log a => exact (exec_act h).1 ▸ hi
    | commit i log =>
      have ⟨ha, hs⟩ := exec_commit h
      rcases hs with ⟨_, hs⟩ | ⟨_, _, hs, _⟩
      case inl => exact hs ▸ hc i log s hi hd.1 hd.2 ha
      case inr => exact hs ▸ hi
  env := fun {e s s'} => he e s s'

variable {P : Protocol (D.server env entry)} {p : Prog Act Res ε α} {Q : α → σ → Prop}
  {E : ε → σ → Prop}

-- A state that has been passed through between two points of a run.
structure Between (P : Protocol (D.server env entry)) (s₀ s₁ s : σ) : Prop where
  inv    : P.inv s
  before : (D.server env entry).Evolves P.cond s₀ s
  after  : (D.server env entry).Evolves P.cond s s₁

-- All answers in the log of a transaction have been given since it began.
def Traced (P : Protocol (D.server env entry)) (i : ι) (s₀ s₁ : σ) (log : Log Act Res ε) : Prop :=
  ∀ l₁ e l₂, log = l₁ ++ e :: l₂ → ∃ x s, Between P s₀ s₁ s ∧ P.cond (.act i l₁ e.action) s ∧
    D.admitted l₁ s = true ∧ D.answer e.action x (D.view l₁ s) = some e.answer

namespace Traced

variable {s₀ s₁ s₂ : σ}

theorem nil : Traced P i s₀ s₁ [] :=
  fun _ _ _ h => by simp at h

theorem later (h : Traced P i s₀ s₁ log) (he : (D.server env entry).Evolves P.cond s₁ s₂) :
    Traced P i s₀ s₂ log :=
  fun l₁ e l₂ hl =>
    have ⟨x, s, hb, ha⟩ := h l₁ e l₂ hl
    ⟨x, s, ⟨hb.inv, hb.before, hb.after.trans he⟩, ha⟩

theorem left {log' : Log Act Res ε} (h : Traced P i s₀ s₁ (log ++ log')) : Traced P i s₀ s₁ log :=
  fun l₁ e l₂ hl => h l₁ e (l₂ ++ log') (by rw [hl, List.append_assoc, List.cons_append])

theorem snoc {r : Except ε (Res a)} (h : Traced P i s₀ s₁ log) (hb : Between P s₀ s₁ s)
    (hc : P.cond (.act i log a) s) (ha : D.admitted log s = true)
    (hr : D.answer a x (D.view log s) = some r) : Traced P i s₀ s₁ (log ++ [⟨a, r⟩]) := by
  intro l₁ e l₂ hl
  rcases List.eq_nil_or_concat l₂ with rfl | ⟨l₃, e', rfl⟩
  case inl =>
    obtain ⟨rfl, he⟩ := List.append_inj' hl rfl
    cases he
    exact ⟨x, s, hb, hc, ha, hr⟩
  case inr =>
    rw [List.concat_eq_append, ← List.cons_append, ← List.append_assoc] at hl
    exact h l₁ e l₃ (List.append_inj' hl rfl).1

end Traced

-- What has to be shown about a transaction in order for it to be safe.
structure Transacts (P : Protocol (D.server env entry)) (i : ι) (p : Prog Act Res ε α)
    (Q : α → σ → Prop) (E : ε → σ → Prop) (s₀ : σ) : Prop where
  act {log : Log Act Res ε} {a : Act} {k : Except ε (Res a) → Prog Act Res ε α} {s : σ} :
    p.After log (.call a k) → Traced P i s₀ s log → P.inv s → P.due (.act i log a) s
  due {log : Log Act Res ε} {v : α} {s : σ} :
    p.After log (.done v) → Traced P i s₀ s log → P.inv s →
      (D.server env entry).Evolves P.cond s₀ s → P.due (.commit i log) s
  done {log : Log Act Res ε} {v : α} {s s' : σ} :
    p.After log (.done v) → Traced P i s₀ s log → P.inv s →
      (D.server env entry).Evolves P.cond s₀ s → P.cond (.commit i log) s → D.admitted log s = true →
      (D.server env entry).Evolves P.cond (D.view log s) s' → P.inv s' → Q v s'
  fail {log : Log Act Res ε} {e : ε} {s : σ} :
    p.After log (.fail e) → Traced P i s₀ s log → P.inv s →
      (D.server env entry).Evolves P.cond s₀ s → E e s
  lost {x : χ} {e : ε} {s : σ} :
    D.commit x = some (.error e) → P.inv s → (D.server env entry).Evolves P.cond s₀ s → E e s

-- The induction is on what remains of the transaction.
theorem Transacts.safe_from {s₀ : σ} {q : Prog Act Res ε α} (h : Transacts P i p Q E s₀)
    (ha : p.After log q) (ht : Traced P i s₀ s log)
    (he : (D.server env entry).Evolves P.cond s₀ s) : P.Safe (q.transaction i log) Q E s := by
  induction q generalizing log s with
  | fail e => exact .fail fun s' he' hi => h.fail ha (ht.later he') hi (he.trans he')
  | done v =>
    refine .of_call fun s₁ he₁ hi₁ => ?_
    refine ⟨h.due ha (ht.later he₁) hi₁ (he.trans he₁), fun hc x r s₂ hx => ?_⟩
    have hs₂ := (he.trans he₁).act hc hx
    have ⟨had, hr⟩ := exec_commit hx
    rcases hr with ⟨rfl, rfl⟩ | ⟨e, rfl, rfl, hxe⟩
    case inl =>
      exact .done fun s₃ he₃ hi₃ => h.done ha (ht.later he₁) hi₁ (he.trans he₁) hc had he₃ hi₃
    case inr => exact .fail fun s₃ he₃ hi₃ => h.lost hxe hi₃ (hs₂.trans he₃)
  | call a k hi =>
    refine .of_call fun s₁ he₁ hi₁ => ?_
    refine ⟨h.act ha (ht.later he₁) hi₁, fun hc x r s₂ hx => ?_⟩
    have hs₂ := (he.trans he₁).act hc hx
    obtain ⟨rfl, had, hr⟩ := exec_act hx
    have hs₁ : Between P s₀ s₂ s₂ := ⟨hi₁, hs₂, .refl⟩
    exact hi r (ha.snoc r) ((ht.later he₁).snoc hs₁ hc had hr) hs₂

theorem Transacts.safe (h : Transacts P i p Q E s) : P.Safe (p.transaction i []) Q E s :=
  h.safe_from .nil .nil .refl

end Database
end Concurrency
