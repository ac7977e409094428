import Mergepay.Idempotency.Reservation

namespace Mergepay.Idempotency

open Concurrency

-- The reservation that a request learns to have made.
def KeyAction.granted : (a : KeyAction) → Except Failure a.Answer → Option Nat
  | .create _ _, .ok attempt      => some attempt
  | .reclaim _ _ _ _, .ok attempt => attempt
  | _, _                          => none

-- Everything that an action can do.
inductive KeyEffect (s : KeyStore) : (a : KeyAction) → Except Failure a.Answer → KeyStore → Prop
  | nothing {a : KeyAction} {r : Except Failure a.Answer} : a.granted r = none → KeyEffect s a r s
  | created {r : Except Failure Nat} : s.row = none →
    (KeyAction.granted (.create h e) r = none ∨
      KeyAction.granted (.create h e) r = some s.attempts) →
    KeyEffect s (.create h e) r (s.created h e)
  | reclaimed {r : Except Failure (Option Nat)} : s.row = some row →
    KeyStore.reclaimable h b row = true →
    (KeyAction.granted (.reclaim h b e c) r = none ∨
      KeyAction.granted (.reclaim h b e c) r = some s.attempts) →
    KeyEffect s (.reclaim h b e c) r (s.reclaimed row e c)
  | committed {r : Except Failure Unit} :
    KeyEffect s (.commit k v) r { s with commits := s.commits ++ [(k, v)] }
  | updated {r : Except Failure Unit} : s.row = some row →
    KeyEffect s (.update k d) r (s.updated k row d)
  | deleted {r : Except Failure Unit} : s.row = some row → row.expiresAt < t →
    KeyEffect s (.deleteExpired t) r { s with row := none }

namespace KeyEffect

variable {s s' : KeyStore} {a : KeyAction} {r : Except Failure a.Answer}

theorem of_statement {r' : Except Failure a.Answer} (h : keyStatement s a = some (r, s'))
    (hr : r' = r ∨ ∃ e, r' = .error e) : KeyEffect s a r' s' := by
  have error {a : KeyAction} {e : Failure} : a.granted (.error e) = none := by cases a <;> rfl
  have granted : a.granted r = none → KeyEffect s a r' s := fun hg => by
    rcases hr with rfl | ⟨e, rfl⟩
    case inl => exact .nothing hg
    case inr => exact .nothing error
  cases a <;> simp only [keyStatement, Option.some.injEq, reduceCtorEq] at h
  case find =>
    cases h
    exact granted rfl
  case commit =>
    cases h
    exact .committed
  case create h' e =>
    split at h
    case h_1 =>
      cases h
      exact granted rfl
    case h_2 hn =>
      cases h
      refine .created hn ?_
      rcases hr with rfl | ⟨e, rfl⟩
      case inl => exact .inr rfl
      case inr => exact .inl rfl
  case reclaim h' b e c =>
    split at h
    case h_1 =>
      cases h
      exact granted rfl
    case h_2 row hn =>
      cases h
      have ⟨hs, hm⟩ := Option.filter_eq_some_iff.mp hn
      refine .reclaimed hs hm ?_
      rcases hr with rfl | ⟨e, rfl⟩
      case inl => exact .inr rfl
      case inr => exact .inl rfl
  case update k d =>
    split at h
    case h_1 =>
      cases h
      exact granted rfl
    case h_2 row hn =>
      cases h
      exact .updated hn
  case deleteExpired t =>
    cases h
    have hf : s.row.filter (fun row => decide ¬row.expiresAt < t) = s.row ∨ ∃ row, s.row = some row ∧
        row.expiresAt < t ∧ s.row.filter (fun row => decide ¬row.expiresAt < t) = none := by
      cases s.row with
      | none     => exact .inl rfl
      | some row =>
        by_cases ht : row.expiresAt < t
        case pos => exact .inr ⟨row, rfl, ht, by simp [ht]⟩
        case neg => exact .inl (Option.filter_some_pos (decide_eq_true ht))
    rcases hf with hf | ⟨row, hs, ht, hf⟩
    case inl =>
      rw [hf]
      exact granted rfl
    case inr =>
      rw [hf]
      exact .deleted hs ht

theorem of_exec {x : KeyChoice} (h : keyExec a x s = some (r, s')) : KeyEffect s a r s' := by
  have error {a : KeyAction} {e : Failure} : a.granted (.error e) = none := by cases a <;> rfl
  unfold keyExec at h
  split at h
  case h_6 => exact of_statement h (.inl rfl)
  case h_7 =>
    have ⟨_, _, h⟩ := Option.map_eq_some_iff.mp h
    cases h
    exact .nothing error
  case h_8 =>
    have ⟨⟨_, _⟩, hs, h⟩ := Option.map_eq_some_iff.mp h
    cases h
    exact of_statement hs (.inr ⟨_, rfl⟩)
  case h_9 => cases h
  all_goals
    cases h
    exact .nothing rfl

-- Reservations are only added, one at a time, and are made known to whoever has made them.
theorem attempts (h : KeyEffect s a r s') : (s'.attempts = s.attempts ∧ a.granted r = none) ∨
    (s'.attempts = s.attempts + 1 ∧ (a.granted r = none ∨ a.granted r = some s.attempts)) := by
  cases h with
  | nothing hg          => exact .inl ⟨rfl, hg⟩
  | created _ hg        => exact .inr ⟨rfl, hg⟩
  | reclaimed _ _ hg    => exact .inr ⟨rfl, hg⟩
  | @committed _ _ r    => exact .inl ⟨rfl, by cases r <;> rfl⟩
  | @updated _ _ _ r    => exact .inl ⟨rfl, by cases r <;> rfl⟩
  | @deleted _ _ r      => exact .inl ⟨rfl, by cases r <;> rfl⟩

theorem attempts_le (h : KeyEffect s a r s') : s.attempts ≤ s'.attempts := by
  rcases h.attempts with ⟨ha, _⟩ | ⟨ha, _⟩ <;> omega

end KeyEffect

theorem find_answer {s s' : KeyStore} {x : KeyChoice} {r : Except Failure (Option KeyRow)}
    (h : keyExec .find x s = some (r, s')) : r = .ok s.row ∨ r = .error World.connectionClosed := by
  cases x <;> cases h
  case plain         => exact .inl rfl
  case failed | lost => exact .inr rfl

theorem keyEnv_eq {s s' : KeyStore} {t : Time} (h : keyEnv t s = some s') : s' = { s with now := t } := by
  simp only [keyEnv, Option.ite_none_right_eq_some, Option.some.injEq] at h
  exact h.2.symm

-- The actions by which keys are reserved, resolved and cleaned up.
def KeyAction.isPlain : KeyAction → Bool
  | now | find | create _ _ | reclaim _ _ _ _ | deleteExpired _ | respond _ _ => true
  | handle _ | operate _ | commit _ _ | update _ _                           => false

-- A way to look at reservations as tickets: which actions use them, which of those use them up, and
-- how this is seen in the shared state.
structure Spending where
  uses   : KeyAction → Option Nat
  spends : KeyAction → Bool
  spent  : KeyStore → List Nat
  plain {a : KeyAction} : a.isPlain = true → uses a = none ∧ spends a = false
  env {s : KeyStore} {t : Time} : spent { s with now := t } = spent s
  grants {a : KeyAction} {r : Except Failure a.Answer} : spends a = true → a.granted r = none
  exec {s s' : KeyStore} {a : KeyAction} {r : Except Failure a.Answer} : KeyEffect s a r s' →
    spent s' = spent s ∨ spends a = true ∧ ∃ k, uses a = some k ∧ spent s' = spent s ++ [k]

namespace Spending

variable (P : Spending)

def tickets : Tickets KeyAction KeyAction.Answer Failure Nat where
  uses  := P.uses
  holds := fun a r h => if P.spends a then none else (a.granted r).or h

def Valid (k : Nat) (s : KeyStore) : Prop :=
  k < s.attempts ∧ k ∉ P.spent s

def Bounded (s : KeyStore) : Prop :=
  ∀ k ∈ P.spent s, k < s.attempts

variable {ι : Type} {entry : ι → KeyTx Unit}

theorem issued : P.tickets.Issued (keySystem entry) P.Valid P.Bounded where
  exec := fun {a x s s' r} hl hv hx k hk => by
    have he : KeyEffect s a r s' := .of_exec hx
    refine Nat.lt_of_lt_of_le ?_ he.attempts_le
    rcases P.exec he with hs | ⟨_, k', hu, hs⟩
    case inl => exact hl k (hs ▸ hk)
    case inr =>
      rw [hs, List.mem_append, List.mem_singleton] at hk
      rcases hk with hk | rfl
      case inl => exact hl k hk
      case inr => exact (hv k hu).1
  keep := fun {a x s s' r} hx k hk hu => by
    have he : KeyEffect s a r s' := .of_exec hx
    refine ⟨Nat.lt_of_lt_of_le hk.1 he.attempts_le, ?_⟩
    rcases P.exec he with hs | ⟨_, k', hu', hs⟩
    case inl => exact hs ▸ hk.2
    case inr =>
      rw [hs, List.mem_append, List.mem_singleton]
      rintro (hm | rfl)
      case inl => exact hk.2 hm
      case inr => exact hu hu'
  give := fun {a x s s' r h} hl hx _ hv k hk => by
    have he : KeyEffect s a r s' := .of_exec hx
    simp only [tickets] at hk
    split at hk
    case isTrue => cases hk
    case isFalse hn =>
      have hs : P.spent s' = P.spent s := (P.exec he).resolve_right fun h => hn h.1
      have kept (hk : k ∈ h) : P.Valid k s' :=
        ⟨Nat.lt_of_lt_of_le (hv k hk).1 he.attempts_le, hs ▸ (hv k hk).2⟩
      rcases he.attempts with ⟨_, hg⟩ | ⟨ha, hg | hg⟩
      case inl =>
        rw [hg, Option.none_or] at hk
        exact ⟨kept hk, .inl hk⟩
      case inr.inl =>
        rw [hg, Option.none_or] at hk
        exact ⟨kept hk, .inl hk⟩
      case inr.inr =>
        rw [hg, Option.some_or, Option.mem_some_iff] at hk
        subst hk
        refine ⟨⟨by omega, fun hm => ?_⟩, .inr fun hn => Nat.lt_irrefl _ hn.1⟩
        exact Nat.lt_irrefl _ (hl _ (hs ▸ hm))
  env := fun {t s s'} hl hx => by
    rw [keyEnv_eq hx]
    exact ⟨fun k hk => hl k (P.env ▸ hk), fun k hk => ⟨hk.1, P.env.symm ▸ hk.2⟩⟩

-- The outcome of a reservation tells which ticket is held.
abbrev Holding : Reserved → Option Nat → Prop
  | .own attempt, h => h = some attempt
  | .replay _,    h => h = none

section

variable {P} {D : KeyConfig} {requestHash : String} {E : Failure → Option Nat → Prop}

theorem plain_carries {a : KeyAction} (ha : a.isPlain = true) (hg : ∀ r, a.granted r = none)
    (he : ∀ e h, E e h) : P.tickets.Carries (.perform a) (fun _ h => h = none) E none := by
  have ⟨hu, hs⟩ := P.plain ha
  refine .perform (by simp [tickets, hu]) (fun v => ?_) fun e => he e _
  simp [tickets, hs, hg]

theorem plain_bind {a : KeyAction} {f : a.Answer → KeyTx α} {Q : α → Option Nat → Prop}
    (ha : a.isPlain = true) (hg : ∀ r, a.granted r = none)
    (hf : ∀ v, P.tickets.Carries (f v) Q (fun _ _ => True) none) :
    P.tickets.Carries ((Prog.perform a).bind f) Q (fun _ _ => True) none :=
  .bind <| (plain_carries ha hg fun _ _ => trivial).mono (fun v _ h => h ▸ hf v) fun _ _ _ => trivial

theorem resolveWinner_carries : P.tickets.Carries (resolveWinner D requestHash e) Holding
    (fun _ _ => True) none := by
  refine plain_bind rfl (fun r => by cases r <;> rfl) fun winner => ?_
  split
  case h_2 => trivial
  case h_1 =>
    unfold resolve
    split
    · trivial
    · split
      · rfl
      · trivial

theorem reclaim_carries : P.tickets.Carries (reclaim D requestHash) Holding (fun _ _ => True) none := by
  have now : ∀ r, KeyAction.granted .now r = none := fun r => by cases r <;> rfl
  refine plain_bind rfl now fun staleFrom => plain_bind rfl now fun t => .bind ?_
  have ⟨hu, hs⟩ := P.plain (a := .reclaim requestHash (staleFrom - D.inProgressTimeout) (t + D.ttl)
    D.clearsStatusCode) rfl
  refine .perform (by simp [tickets, hu]) (fun claimed => ?_) fun _ => trivial
  simp only [tickets, hs]
  cases claimed with
  | some attempt => rfl
  | none         => exact resolveWinner_carries

theorem reserveNew_carries : P.tickets.Carries (reserveNew D requestHash) Holding (fun _ _ => True)
    none := by
  refine plain_bind rfl (fun r => by cases r <;> rfl) fun t => .bind <| .attempt ?_
  have ⟨hu, hs⟩ := P.plain (a := .create requestHash (t + D.ttl)) rfl
  refine .perform (by simp [tickets, hu]) (fun attempt => ?_) fun e => ?_
  · simp only [tickets, hs]
    rfl
  · simp only [tickets, hs, Prog.bind_eq, Prog.throw_eq, Prog.fail_bind]
    split
    · trivial
    · exact resolveWinner_carries

-- Whoever reserves a key holds the ticket of the reservation.
theorem reserve_carries : P.tickets.Carries (reserve D requestHash) Holding (fun _ _ => True) none := by
  refine plain_bind rfl (fun r => by cases r <;> rfl) fun existing => ?_
  split
  case h_1 => exact reserveNew_carries
  case h_2 =>
    simp only [Prog.bind_eq, Prog.pure_eq]
    split
    case isTrue  => rfl
    case isFalse =>
      refine plain_bind rfl (fun r => by cases r <;> rfl) fun _ => .bind ?_
      exact .ofExcept (fun _ => reclaim_carries) fun _ => trivial

end

end Spending

end Mergepay.Idempotency
