import Mathlib.Algebra.BigOperators.Group.List.Basic
import Mathlib.Algebra.Order.BigOperators.Group.List
import Mathlib.Algebra.Order.Ring.Nat

-- Attempts of something that may fail, until it succeeds or its failure is not to be followed by another attempt.
namespace Retrying

variable {ε α δ : Type}

structure Report (ε α δ : Type) where
  attempts : Nat
  waits    : List δ
  outcome  : Except ε α

-- After the given attempt, as many others as `left` may be made. The wait before the next one is told by `next`.
def loop (f : Nat → Except ε α) (next : ε → Nat → Option δ) : (left attempt : Nat) → Report ε α δ
  | left, attempt =>
    match f attempt with
    | .ok a    => ⟨attempt, [], .ok a⟩
    | .error e =>
      match left, next e attempt with
      | left + 1, some d =>
        let r := loop f next left (attempt + 1)
        { r with waits := d :: r.waits }
      | _, _ => ⟨attempt, [], .error e⟩

def retry (maxAttempts : Nat) (f : Nat → Except ε α) (next : ε → Nat → Option δ) : Report ε α δ :=
  loop f next (maxAttempts - 1) 1

-- An attempt which is followed by another one.
def Retried (f : Nat → Except ε α) (next : ε → Nat → Option δ) (attempt : Nat) (d : δ) : Prop :=
  ∃ e, f attempt = .error e ∧ next e attempt = some d

-- What is made is determined by the outcomes of the attempts.
structure Report.Follows (r : Report ε α δ) (f : Nat → Except ε α) (next : ε → Nat → Option δ) (first last : Nat) :
    Prop where
  within  : first ≤ r.attempts ∧ r.attempts ≤ last
  outcome : f r.attempts = r.outcome
  length  : first + r.waits.length = r.attempts
  retried : ∀ i d, r.waits[i]? = some d → Retried f next (first + i) d
  ended   : (∃ d, Retried f next r.attempts d) → r.attempts = last

variable {f : Nat → Except ε α} {next : ε → Nat → Option δ} {left attempt first last : Nat} {r : Report ε α δ}

theorem Report.Follows.stop {o : Except ε α} (hf : f first = o) (hl : first ≤ last)
    (h : ∀ d, Retried f next first d → first = last) : Report.Follows ⟨first, [], o⟩ f next first last where
  within  := ⟨Nat.le_refl _, hl⟩
  outcome := hf
  length  := rfl
  retried := by simp
  ended   := fun ⟨d, hd⟩ => h d hd

theorem Report.Follows.cons {d : δ} (h : r.Follows f next (first + 1) last) (hd : Retried f next first d) :
    Report.Follows { r with waits := d :: r.waits } f next first last where
  within  := by have := h.within; simp only; omega
  outcome := h.outcome
  length  := by have := h.length; simp only [List.length_cons]; omega
  retried := by
    intro i d' hi
    cases i with
    | zero   => exact Option.some.inj hi ▸ hd
    | succ i => simpa only [Nat.add_assoc, Nat.add_comm 1] using h.retried i d' hi
  ended   := h.ended

theorem follows_loop (f : Nat → Except ε α) (next : ε → Nat → Option δ) (left attempt : Nat) :
    (loop f next left attempt).Follows f next attempt (attempt + left) := by
  induction left generalizing attempt with
  | zero =>
    rw [loop]
    cases h : f attempt with
    | ok a    => exact .stop h (Nat.le_refl _) fun _ _ => rfl
    | error e => exact .stop h (Nat.le_refl _) fun _ _ => rfl
  | succ left hi =>
    rw [loop]
    cases h : f attempt with
    | ok a =>
      refine .stop h (Nat.le_add_right ..) fun d hr => ?_
      have ⟨_, he, _⟩ := hr
      cases h.symm.trans he
    | error e =>
      cases hn : next e attempt with
      | none =>
        simp only [hn]
        refine .stop h (Nat.le_add_right ..) fun d hr => ?_
        have ⟨_, he, hd⟩ := hr
        cases h.symm.trans he
        cases hn.symm.trans hd
      | some d =>
        have hi := @hi (attempt + 1)
        rw [Nat.add_assoc, Nat.add_comm 1] at hi
        simp only [hn]
        exact hi.cons ⟨e, h, hn⟩

theorem follows_retry (f : Nat → Except ε α) (next : ε → Nat → Option δ) {maxAttempts : Nat} (hm : 0 < maxAttempts) :
    (retry maxAttempts f next).Follows f next 1 maxAttempts := by
  have h := follows_loop f next (maxAttempts - 1) 1
  rwa [Nat.add_sub_cancel' hm] at h

-- Where an attempt is not followed by another one, none is made thereafter.
theorem Report.Follows.attempts_le (h : r.Follows f next first last) {n : Nat} (hn : first ≤ n)
    (hs : ∀ d, ¬Retried f next n d) : r.attempts ≤ n := by
  by_contra hlt
  have hl := h.length
  have hi : n - first < r.waits.length := by omega
  have hr := h.retried (n - first) _ (List.getElem?_eq_getElem hi)
  rw [Nat.add_sub_cancel' hn] at hr
  exact hs _ hr

-- Waits that are bounded one by one are bounded together.
theorem Report.Follows.sum_le {next : ε → Nat → Option Nat} {r : Report ε α Nat} (h : r.Follows f next first last)
    {b : Nat} (hb : ∀ n d, first ≤ n → Retried f next n d → d ≤ b) : r.waits.sum ≤ (r.attempts - first) * b := by
  have hl := h.length
  rw [show r.attempts - first = r.waits.length by omega]
  refine List.sum_le_card_nsmul _ _ fun d hd => ?_
  have ⟨i, hi⟩ := List.mem_iff_getElem?.mp hd
  exact hb _ _ (Nat.le_add_right ..) (h.retried i d hi)

end Retrying
