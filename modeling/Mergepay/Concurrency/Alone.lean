import Mergepay.Concurrency.Transaction

namespace Concurrency

variable {σ Act : Type} {Res : Act → Type} {ε χ ι α β : Type}

-- Runs a program without any interference. For each action, its surroundings make the choice that is given
-- by `f`. The outcome is undefined if one of these choices is impossible.
def Prog.alone (exec : (a : Act) → χ → σ → Option (Except ε (Res a) × σ)) (f : Act → χ) :
    Prog Act Res ε α → σ → Option (Except ε α × σ)
  | done a,   s => some (.ok a, s)
  | fail e,   s => some (.error e, s)
  | call a k, s => (exec a (f a) s).bind fun (r, s) => (k r).alone exec f s

-- In this case it does not raise, and what is left meets a condition.
def Prog.Returns (exec : (a : Act) → χ → σ → Option (Except ε (Res a) × σ)) (f : Act → χ)
    (p : Prog Act Res ε α) (Q : α → σ → Prop) (s : σ) : Prop :=
  ∃ a s', p.alone exec f s = some (.ok a, s') ∧ Q a s'

namespace Prog.Returns

variable {exec : (a : Act) → χ → σ → Option (Except ε (Res a) × σ)} {f : Act → χ} {p : Prog Act Res ε α}
  {g : α → Prog Act Res ε β} {s s' : σ} {Q Q' : α → σ → Prop}

theorem done (h : Q a s) : (done a : Prog Act Res ε α).Returns exec f Q s :=
  ⟨a, s, rfl, h⟩

theorem call {k : Except ε (Res a) → Prog Act Res ε α} (hx : exec a (f a) s = some (r, s'))
    (h : (k r).Returns exec f Q s') : (call a k).Returns exec f Q s := by
  have ⟨b, s'', hb, hq⟩ := h
  exact ⟨b, s'', by rw [alone, hx]; exact hb, hq⟩

theorem perform {a : Act} {v : Res a} {Q : Res a → σ → Prop} (hx : exec a (f a) s = some (.ok v, s'))
    (h : Q v s') : (perform a : Prog Act Res ε (Res a)).Returns exec f Q s :=
  call hx <| done h

theorem mono (h : p.Returns exec f Q s) (hq : ∀ a s', Q a s' → Q' a s') : p.Returns exec f Q' s := by
  have ⟨a, s', ha, h⟩ := h
  exact ⟨a, s', ha, hq a s' h⟩

theorem bind {Q : β → σ → Prop} (h : p.Returns exec f (fun a s' => (g a).Returns exec f Q s') s) :
    (p.bind g).Returns exec f Q s := by
  have ⟨a, s', ha, hg⟩ := h
  clear h
  induction p generalizing s with
  | done b =>
    cases ha
    exact hg
  | fail e => cases ha
  | call b k hi =>
    have ⟨⟨r, s₁⟩, hx, ha⟩ := Option.bind_eq_some_iff.mp ha
    exact call hx <| hi r ha

theorem attempt {Q : Except ε α → σ → Prop} (h : p.Returns exec f (fun a s' => Q (.ok a) s') s) :
    p.attempt.Returns exec f Q s := by
  have ⟨a, s', ha, hq⟩ := h
  clear h
  induction p generalizing s with
  | done b =>
    cases ha
    exact done hq
  | fail e => cases ha
  | call b k hi =>
    have ⟨⟨r, s₁⟩, hx, ha⟩ := Option.bind_eq_some_iff.mp ha
    exact call hx <| hi r ha

theorem swallow {Q : Unit → σ → Prop} (h : p.Returns exec f (fun _ s' => Q () s') s) :
    p.swallow.Returns exec f Q s :=
  bind <| attempt <| h.mono fun _ _ hq => done hq

end Prog.Returns

namespace Database

variable {D : Database σ Act Res ε χ} {s : σ} {log : Log Act Res ε} {f : Act → χ} {x : χ}
  {p : Prog Act Res ε α} {i : ι}

-- Whatever succeeds is allowed by the constraints.
def Lawful (D : Database σ Act Res ε χ) : Prop :=
  ∀ a x s v, D.answer a x s = some (.ok v) → D.admits a s = true

-- An action in the middle of a transaction.
def step (D : Database σ Act Res ε χ) (a : Act) (x : χ) (s : σ) : Option (Except ε (Res a) × σ) :=
  (D.answer a x s).map fun r => (r, D.apply ⟨a, r⟩ s)

-- All commits make the same choice.
def Step.choose (f : Act → χ) (x : χ) : Step ι Act Res ε → χ
  | act _ _ a  => f a
  | commit _ _ => x

-- A transaction that is not disturbed does what its program does. The induction is on what remains of it.
theorem returns_from {Q : α → σ → Prop} (hl : D.Lawful) (hx : D.commit x = some (.ok ()))
    (ha : D.admitted log s = true) (h : p.Returns D.step f Q (D.view log s)) :
    (p.transaction i log).Returns D.exec (Step.choose f x) Q s := by
  obtain ⟨a, s', hp, hq⟩ := h
  induction p generalizing log with
  | done v =>
    cases hp
    have hx : D.exec (.commit i log) x s = some (.ok (), D.view log s) := by simp [exec, ha, hx]
    exact .call hx <| .done hq
  | fail e => cases hp
  | call b k hi =>
    obtain ⟨⟨r, s₁⟩, hb, hp⟩ := Option.bind_eq_some_iff.mp hp
    obtain ⟨v, hv, he⟩ := Option.map_eq_some_iff.mp hb
    cases he
    have hx : D.exec (.act i log b) (f b) s = some (r, s) := by rw [exec, if_pos ha, hv, Option.map_some]
    refine .call hx <| hi r ?_ ?_
    · rw [admitted_append, ha, Bool.true_and, admitted, admitted, Bool.and_true]
      cases r with
      | ok v    => exact hl b _ _ v hv
      | error e => rfl
    · rw [view_append]
      exact hp

theorem returns_transaction {Q : α → σ → Prop} (hl : D.Lawful) (hx : D.commit x = some (.ok ()))
    (h : p.Returns D.step f Q s) : (p.transaction i []).Returns D.exec (Step.choose f x) Q s :=
  returns_from hl hx rfl h

-- A read that is not part of a transaction.
theorem returns_read {a : Act} {v : Res a} {Q : Res a → σ → Prop} (h : D.answer a (f a) s = some (.ok v))
    (hq : Q v s) : (Prog.perform (Step.act i [] a)).Returns D.exec (Step.choose f x) Q s :=
  .perform (by rw [exec, Step.choose, admitted, if_pos rfl, view, h, Option.map_some]) hq

end Database
end Concurrency
