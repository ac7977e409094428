import Mathlib.Algebra.BigOperators.Group.List.Basic
import Mathlib.Data.List.Forall2
import Mathlib.Tactic.Ring
import Mergepay.Concurrency.Session

namespace Concurrency

variable {σ Act : Type} {Res : Act → Type} {ε χ η ι α β : Type}

-- A step that is no crash, and for which the surroundings only make choices that meet a condition.
def Label.Calm (L : χ → Prop) : Label χ η ι → Prop
  | .act _ x          => L x
  | .crash _          => False
  | .spawn _ | .env _ => True

instance (L : χ → Prop) [DecidablePred L] : DecidablePred (Label.Calm L : Label χ η ι → Prop)
  | .act _ x          => inferInstanceAs (Decidable (L x))
  | .crash _          => inferInstanceAs (Decidable False)
  | .spawn _ | .env _ => inferInstanceAs (Decidable True)

-- The configurations that are reached by such steps.
inductive System.Undisturbed (S : System σ Act Res ε χ η ι) (L : χ → Prop) (C : Act → σ → Prop) :
    Config σ Act Res ε → Config σ Act Res ε → Prop
  | refl {c : Config σ Act Res ε} : Undisturbed S L C c c
  | step {c₁ c₂ c₃ : Config σ Act Res ε} {l : Label χ η ι} : Undisturbed S L C c₁ c₂ → l.Calm L →
    c₂.Meets C l → S.next l c₂ = some c₃ → Undisturbed S L C c₁ c₃

theorem System.Undisturbed.run {S : System σ Act Res ε χ η ι} {L : χ → Prop} {C : Act → σ → Prop}
    {c₁ c₂ : Config σ Act Res ε} (r : S.Undisturbed L C c₁ c₂) : S.Run C c₁ c₂ := by
  induction r with
  | refl             => exact .refl
  | step _ _ m hn hi => exact .step hi m hn

theorem System.Undisturbed.head {S : System σ Act Res ε χ η ι} {L : χ → Prop} {C : Act → σ → Prop}
    {c₁ c₂ c₃ : Config σ Act Res ε} {l : Label χ η ι} (hl : l.Calm L) (m : c₁.Meets C l)
    (h : S.next l c₁ = some c₂) (r : S.Undisturbed L C c₂ c₃) : S.Undisturbed L C c₁ c₃ := by
  induction r with
  | refl                => exact .step .refl hl m h
  | step _ hl' m' h' hi => exact .step hi hl' m' h'

theorem System.Undisturbed.of_play {S : System σ Act Res ε χ η ι} {L : χ → Prop} {C : Act → σ → Prop}
    [∀ a s, Decidable (C a s)] {c c' : Config σ Act Res ε} {ls : List (Label χ η ι)}
    (hl : ∀ l ∈ ls, l.Calm L) (h : S.play C ls c = some c') : S.Undisturbed L C c c' := by
  induction ls generalizing c <;> simp only [play] at h
  case nil => exact Option.some.inj h ▸ .refl
  case cons hd tl hi =>
    obtain ⟨hhd, htl⟩ := List.forall_mem_cons.mp hl
    split at h
    case isFalse => contradiction
    case isTrue m =>
      obtain ⟨_, hn, ht⟩ := Option.bind_eq_some_iff.mp h
      exact .head hhd m hn (hi htl ht)

-- An account of the shared state. What is taken out of the balance by a process has to be paid back by it.
-- All of this is about undisturbed runs, in which an invariant holds.
structure Account (S : System σ Act Res ε χ η ι) where
  balance : σ → Int
  choices : χ → Prop
  cond    : Act → σ → Prop
  inv     : σ → Prop
  exec {a : Act} {x : χ} {s s' : σ} {r : Except ε (Res a)} :
    inv s → choices x → cond a s → S.exec a x s = some (r, s') → inv s'
  env {e : η} {s s' : σ} : inv s → S.env e s = some s' → inv s' ∧ balance s' = balance s

namespace Account

variable {S : System σ Act Res ε χ η ι} (A : Account S)

-- A program that owes `n` ends with `Q` if it returns and with `E` if it raises.
def Pays : Prog Act Res ε α → (α → Int → Prop) → (ε → Int → Prop) → Int → Prop
  | .done v, Q, _, n   => Q v n
  | .fail e, _, E, n   => E e n
  | .call a k, Q, E, n => ∀ x s r s', A.inv s → A.choices x → A.cond a s → S.exec a x s = some (r, s') →
    Pays (k r) Q E (n + (A.balance s - A.balance s'))

-- A program that has paid back everything in the end.
abbrev Clears (p : Prog Act Res ε α) (n : Int) : Prop :=
  A.Pays p (fun _ n => n = 0) (fun _ n => n = 0) n

variable {A} {Q Q' : α → Int → Prop} {E E' : ε → Int → Prop} {n : Int}

namespace Pays

theorem done {v : α} (h : Q v n) : A.Pays (.done v) Q E n :=
  h

theorem fail {e : ε} (h : E e n) : A.Pays (.fail e : Prog Act Res ε α) Q E n :=
  h

theorem call {a : Act} {k : Except ε (Res a) → Prog Act Res ε α}
    (h : ∀ x s r s', A.inv s → A.choices x → A.cond a s → S.exec a x s = some (r, s') →
      A.Pays (k r) Q E (n + (A.balance s - A.balance s'))) : A.Pays (.call a k) Q E n :=
  h

theorem mono {p : Prog Act Res ε α} (h : A.Pays p Q E n) (hq : ∀ v n, Q v n → Q' v n)
    (he : ∀ e n, E e n → E' e n) : A.Pays p Q' E' n := by
  induction p generalizing n with
  | done v      => exact hq v n h
  | fail e      => exact he e n h
  | call a k hi => exact fun x s r s' hs hx hc ha => hi r (h x s r s' hs hx hc ha)

theorem bind {p : Prog Act Res ε α} {f : α → Prog Act Res ε β} {Q : β → Int → Prop}
    (h : A.Pays p (fun v => A.Pays (f v) Q E) E n) : A.Pays (p.bind f) Q E n := by
  induction p generalizing n with
  | done v      => exact h
  | fail e      => exact h
  | call a k hi => exact fun x s r s' hs hx hc ha => hi r (h x s r s' hs hx hc ha)

theorem attempt {p : Prog Act Res ε α} {Q : Except ε α → Int → Prop}
    (h : A.Pays p (fun v => Q (.ok v)) (fun e => Q (.error e)) n) : A.Pays p.attempt Q E n := by
  induction p generalizing n with
  | done v      => exact h
  | fail e      => exact h
  | call a k hi => exact fun x s r s' hs hx hc ha => hi r (h x s r s' hs hx hc ha)

theorem swallow {p : Prog Act Res ε α} {Q : Unit → Int → Prop}
    (h : A.Pays p (fun _ => Q ()) (fun _ => Q ()) n) : A.Pays p.swallow Q E n :=
  bind (attempt h)

-- An action that has nothing to do with the balance.
theorem perform {a : Act} {Q : Res a → Int → Prop}
    (h : ∀ x s r s', A.inv s → A.choices x → A.cond a s → S.exec a x s = some (r, s') →
      A.balance s' = A.balance s ∧ match r with
        | .ok v    => Q v n
        | .error e => E e n) : A.Pays (.perform a) Q E n := by
  intro x s r s' hs hx hc ha
  have ⟨hb, hr⟩ := h x s r s' hs hx hc ha
  rw [hb, sub_self, add_zero]
  cases r with
  | ok v    => exact hr
  | error e => exact hr

end Pays

variable (A) in
-- The processes of a configuration owe `total` altogether.
def Owes (c : Config σ Act Res ε) (total : Int) : Prop :=
  A.inv c.shared ∧ ∃ debts, List.Forall₂ (fun p n => A.Clears p n) c.procs debts ∧
    A.balance c.shared + debts.sum = total

variable {c c₁ c₂ : Config σ Act Res ε} {total : Int} {l : Label χ η ι}

theorem forall₂_set {p q : Prog Act Res ε Unit} {ps : List (Prog Act Res ε Unit)} {debts : List Int}
    {m : Nat} (h : List.Forall₂ (fun p n => A.Clears p n) ps debts) (hp : ps[m]? = some p)
    (hq : ∀ n, A.Clears p n → A.Clears q (n + d)) :
    ∃ debts', List.Forall₂ (fun p n => A.Clears p n) (ps.set m q) debts' ∧
      debts'.sum = debts.sum + d := by
  induction h generalizing m with
  | nil => cases hp
  | @cons p' n ps debts hn _ hi =>
    cases m with
    | zero =>
      cases hp
      exact ⟨(n + d) :: debts, .cons (hq n hn) ‹_›, by simp only [List.sum_cons]; ring⟩
    | succ m =>
      have ⟨debts', hd, hs⟩ := hi hp
      exact ⟨n :: debts', .cons hn hd, by simp only [List.sum_cons, hs]; ring⟩

theorem owes_next (hs : ∀ i, A.Clears (S.entry i) 0) (h : A.Owes c₁ total) (hl : l.Calm A.choices)
    (m : c₁.Meets A.cond l) (hn : S.next l c₁ = some c₂) : A.Owes c₂ total := by
  obtain ⟨hi, debts, hd, ht⟩ := h
  cases l <;> simp only [System.next, Option.some.injEq] at hn
  case spawn i =>
    subst hn
    exact ⟨hi, debts ++ [0], List.rel_append hd (.cons (hs i) .nil), by simpa using ht⟩
  case crash => exact hl.elim
  case env e =>
    obtain ⟨s, hx, hn⟩ := Option.map_eq_some_iff.mp hn
    subst hn
    obtain ⟨hi', hb⟩ := A.env hi hx
    exact ⟨hi', debts, hd, hb ▸ ht⟩
  case act n x =>
    split at hn
    case h_2 => contradiction
    case h_1 a k hp =>
      obtain ⟨⟨r, s⟩, hx, hn⟩ := Option.map_eq_some_iff.mp hn
      subst hn
      have hc : A.cond a c₁.shared := m _ hp
      obtain ⟨debts', hd', hs'⟩ := forall₂_set (q := k r) hd hp
        fun n hn => hn x c₁.shared r s hi hl hc hx
      exact ⟨A.exec hi hl hc hx, debts', hd', by simp only [hs', ← ht]; ring⟩

theorem owes_run (hs : ∀ i, A.Clears (S.entry i) 0) {s : σ} (hi : A.inv s)
    (r : S.Undisturbed A.choices A.cond ⟨s, []⟩ c) : A.Owes c (A.balance s) := by
  induction r with
  | refl             => exact ⟨hi, [], .nil, by simp⟩
  | step _ hl m hn h => exact owes_next hs h hl m hn

theorem sum_of_ended {ps : List (Prog Act Res ε Unit)} {debts : List Int}
    (h : List.Forall₂ (fun p n => A.Clears p n) ps debts) (he : ∀ p ∈ ps, ∀ a k, p ≠ .call a k) :
    debts.sum = 0 := by
  induction h with
  | nil => rfl
  | @cons p n ps debts hp _ hi =>
    have ⟨hhd, htl⟩ := List.forall_mem_cons.mp he
    rw [List.sum_cons, hi htl, add_zero]
    cases p with
    | done | fail => exact hp
    | call a k    => exact (hhd a k rfl).elim

-- When all processes have ended, the balance is what it was in the beginning.
theorem Owes.cleared (h : A.Owes c total) (he : ∀ p ∈ c.procs, ∀ a k, p ≠ .call a k) :
    A.balance c.shared = total := by
  obtain ⟨_, debts, hd, ht⟩ := h
  rw [← ht, sum_of_ended hd he, add_zero]

end Account

-- A transaction. Only its commit matters.
theorem Account.Pays.transaction {D : Database σ Act Res ε χ} {env : η → σ → Option σ}
    {entry : ι → Database.Session ι Act Res ε Unit} {A : Account (D.server env entry)}
    {p : Prog Act Res ε α} {i : ι} {Q : α → Int → Prop} {E : ε → Int → Prop} {n : Int}
    (hd : ∀ log v s, p.After log (.done v) → A.inv s → A.cond (.commit i log) s → D.admitted log s = true →
      Q v (n + (A.balance s - A.balance (D.view log s))))
    (hf : ∀ log e, p.After log (.fail e) →
      (∀ b ∈ log, ∃ x s, A.choices x ∧ D.answer b.action x s = some b.answer) → E e n)
    (hc : ∀ x e, A.choices x → D.commit x = some (.error e) → E e n) :
    A.Pays (p.transaction i []) Q E n := by
  have rest {q : Prog Act Res ε α} {log : Log Act Res ε} (hq : p.After log q)
      (hlog : ∀ b ∈ log, ∃ x s, A.choices x ∧ D.answer b.action x s = some b.answer) :
      A.Pays (q.transaction i log) Q E n := by
    induction q generalizing log with
    | fail e => exact hf log e hq hlog
    | done v =>
      intro x s r s' hs hx hcond ha
      have ⟨had, hr⟩ := Database.exec_commit ha
      rcases hr with ⟨rfl, rfl⟩ | ⟨e, rfl, rfl, he⟩
      case inl => exact hd log v s hq hs hcond had
      case inr =>
        rw [sub_self, add_zero]
        exact hc x e hx he
    | call a k hi =>
      intro x s r s' hs hx hcond ha
      obtain ⟨rfl, _, hr⟩ := Database.exec_act ha
      rw [sub_self, add_zero]
      refine hi r (hq.snoc r) fun b hb => ?_
      rcases List.mem_append.mp hb with hb | hb
      case inl => exact hlog b hb
      case inr =>
        cases List.mem_singleton.mp hb
        exact ⟨x, _, hx, hr⟩
  exact rest .nil (by simp)

-- From here on only the rules are used.
attribute [irreducible] Account.Pays

end Concurrency
