import Mathlib.Logic.Function.Basic
import Mergepay.Concurrency.Chronicle
import Mergepay.Settlement.Growth

namespace Mergepay

open Concurrency

-- What the worker has done for each settlement since an envelope was last accepted for it: how often it has
-- recorded an attempt, upon which it calls `submitPayment`, and how often an envelope has been submitted.
structure Tally where
  calls       : String → Nat := fun _ => 0
  submissions : String → Nat := fun _ => 0

-- The effect of a write takes place, whether its answer is lost or not.
def Choice.takesEffect : Choice → Bool
  | .ok | .lost _ => true
  | _             => false

def Choice.answers : Choice → Bool
  | .ok => true
  | _   => false

namespace Tally

def call (i : String) (g : Tally) : Tally :=
  { g with calls := Function.update g.calls i (g.calls i + 1) }

def submission (i : String) (g : Tally) : Tally :=
  { g with submissions := Function.update g.submissions i (g.submissions i + 1) }

def acceptance (i : String) (g : Tally) : Tally where
  calls       := Function.update g.calls i 0
  submissions := Function.update g.submissions i 0

def count : Act → Choice → World → Tally → Tally
  | .submit i _, _, _, g => g.submission i
  | .update (.recordAttemptStarted i n t), x, w, g =>
    if x.answers ∧ w.settlements.any (Write.recordAttemptStarted i n t).applies then g.call i else g
  | .update (.sign i xdr now b), x, w, g =>
    if x.takesEffect ∧ w.settlements.any (Write.sign i xdr now b).applies then g.acceptance i else g
  | _, _, _, g => g

end Tally

def Entry.submits : Entry → Bool
  | .processSubmittedSettlements _ => true
  | _                              => false

-- The requests of users, and the background jobs that do not look at the ledger.
def Entry.serves : Entry → Bool
  | .createExpense .. | .deleteExpense .. | .settleExpense .. | .settleGroup .. | .confirm .. | .execute ..
  | .recoverStaleSettlements | .expireStaleSettlementIntents => true
  | _ => false

-- Incarnations of a worker, at most one of which is at work at a time, alongside all requests.
def Deps.incarnations (D : Deps) : Chronicle D.system Tally where
  record  := fun _ => Tally.count
  permits := fun _ _ _ _ => True
  starts  := fun i => i.submits ∨ i.serves
  rival   := fun i j => i.submits ∧ j.submits
  symm    := fun _ _ h => h.symm

def World.Succeeded (hash : String) (w : World) : Prop :=
  (w.transaction hash).map (·.successful) = some true

-- What is recorded for a settlement covers what the worker has done.
structure Settlement.Covers (w : World) (calls : Nat) (s : Settlement) : Prop where
  count    : s.status ≠ .confirmed → calls ≤ s.retryCount
  recorded : ∀ h, s.stellarTxHash = some h → w.Succeeded h

structure Deps.Budgeted (D : Deps) (s : World × Tally) : Prop where
  wellFormed  : s.1.WellFormed
  submissions : ∀ i, s.2.submissions i ≤ s.2.calls i
  calls       : ∀ i, s.2.calls i ≤ D.settlementMaxAttempts
  absent      : ∀ i, s.1.settlement i = none → s.2.calls i = 0
  covers      : ∀ i r, s.1.settlement i = some r → r.Covers s.1 (s.2.calls i)

def heldStatuses : List SettlementStatus :=
  [.submitted, .verifying, .needsReview]

-- The worker is in charge of a settlement, for which it has recorded `m` attempts. It does not matter to it
-- if the settlement is confirmed behind its back.
structure Held (i : String) (m : Nat) (s : World × Tally) : Prop where
  row   : ∃ r, s.1.settlement i = some r ∧
    (r.status = .confirmed ∨ r.status ∈ heldStatuses ∧ r.retryCount = m)
  calls : s.2.calls i ≤ m

-- An attempt has been recorded, but nothing has been submitted as yet.
structure Armed (i : String) (m : Nat) (s : World × Tally) : Prop extends Held i m s where
  due : s.2.submissions i < s.2.calls i

-- What lasts, whoever takes a step.
structure Lasts (s s' : World × Tally) : Prop where
  confirmed : ∀ i r, s.1.settlement i = some r → r.status = .confirmed →
    ∃ r', s'.1.settlement i = some r' ∧ r'.status = .confirmed
  succeeded : ∀ h, s.1.Succeeded h → s'.1.Succeeded h

-- A step of somebody else than the worker.
structure Serves (s s' : World × Tally) : Prop extends Lasts s s' where
  held  : ∀ i m, Held i m s → Held i m s'
  armed : ∀ i m, Armed i m s → Armed i m s'

theorem Lasts.refl (s : World × Tally) : Lasts s s where
  confirmed _ r h hc := ⟨r, h, hc⟩
  succeeded _ h      := h

theorem Serves.refl (s : World × Tally) : Serves s s where
  toLasts   := .refl s
  held _ _  := id
  armed _ _ := id

-- What somebody else than the worker may do to a settlement.
structure Settlement.Served (s s' : Settlement) : Prop where
  confirmed : s.status = .confirmed → s'.status = .confirmed
  held      : s.status ∈ heldStatuses →
    s'.status = .confirmed ∨ s'.status = s.status ∧ s'.retryCount = s.retryCount

variable {D : Deps} {w w' : World} {g g' : Tally}

theorem World.Grows.succeeded (h : w.Grows w') (hs : w.Succeeded k) : w'.Succeeded k := by
  have ⟨t, ht, hb⟩ := Option.map_eq_some_iff.mp hs
  exact Option.map_eq_some_iff.mpr ⟨t, h.transaction ht, hb⟩

-- A change of the world that leaves the settlements as they are.
theorem Deps.Budgeted.of_settlements (h : D.Budgeted (w, g)) (hw : w'.WellFormed) (hg : w.Grows w')
    (hs : ∀ i, w'.settlement i = w.settlement i) : D.Budgeted (w', g) ∧ Serves (w, g) (w', g) := by
  refine ⟨⟨hw, h.submissions, h.calls, fun i hi => h.absent i (hs i ▸ hi), fun i r hr => ?_⟩, ?_⟩
  case refine_1 =>
    have hc := h.covers i r (hs i ▸ hr)
    exact ⟨hc.count, fun k hk => hg.succeeded (hc.recorded k hk)⟩
  case refine_2 =>
    have held : ∀ i m, Held i m (w, g) → Held i m (w', g) :=
      fun i m ⟨⟨r, hr, hm⟩, hc⟩ => ⟨⟨r, (hs i).trans hr, hm⟩, hc⟩
    exact ⟨⟨fun i r hr hc => ⟨r, (hs i).trans hr, hc⟩, fun _ => hg.succeeded⟩, held,
      fun i m ha => ⟨held i m ha.toHeld, ha.due⟩⟩

-- What the worker and the others expect of each other.
def Deps.retries (D : Deps) : D.incarnations.Contract where
  inv  := D.Budgeted
  rely := fun i => if i.submits then Serves else Lasts
  guar := fun i => if i.submits then Lasts else Serves
  fits := fun {i j s s'} hr hg => by
    cases hi : i.submits <;> cases hj : j.submits <;> simp only [hi] at hg ⊢
    case false.false => exact hg.toLasts
    case false.true  => exact hg
    case true.false  => exact hg
    case true.true   => exact (hr ⟨hi, hj⟩).elim
  env := fun {e s t} h he => by
    have ⟨hi, hs⟩ := h.of_settlements (env_wellFormed he h.wellFormed) (env_grows he) fun i => by
      cases e <;> simp only [Deps.system, Deps.env] at he
      case tick | apply =>
        split at he <;> cases he
        rfl
      case join | leave => cases he; rfl
    refine ⟨hi, fun i => ?_⟩
    cases hi : i.submits with
    | true  => simpa [hi] using hs
    | false => simpa [hi] using hs.toLasts

theorem Serves.of_rows (hg : w.Grows w') (hr : ∀ i s, w.settlement i = some s → ∃ s', w'.settlement i = some s' ∧
      s.Served s' ∧ (s.status = .confirmed ∨ s.status ∈ heldStatuses →
        g'.calls i = g.calls i ∧ g'.submissions i = g.submissions i)) : Serves (w, g) (w', g') := by
  have held : ∀ i m, Held i m (w, g) → Held i m (w', g') ∧ g'.calls i = g.calls i ∧
      g'.submissions i = g.submissions i := by
    intro i m ⟨⟨s, hs, hm⟩, hc⟩
    have ⟨s', hs', hv, ht⟩ := hr i s hs
    have ht := ht <| hm.imp_right And.left
    refine ⟨⟨⟨s', hs', ?_⟩, ht.1 ▸ hc⟩, ht⟩
    rcases hm with hm | ⟨hm, hn⟩
    case inl => exact .inl <| hv.confirmed hm
    case inr =>
      rcases hv.held hm with h | ⟨h, hk⟩
      case inl => exact .inl h
      case inr => exact .inr ⟨h ▸ hm, hk.trans hn⟩
  refine ⟨⟨fun i s hs hc => ?_, fun _ => hg.succeeded⟩, fun i m h => (held i m h).1, fun i m h => ?_⟩
  case refine_1 =>
    have ⟨s', hs', hv, _⟩ := hr i s hs
    exact ⟨s', hs', hv.confirmed hc⟩
  case refine_2 =>
    have ⟨hh, hc, hs⟩ := held i m h.toHeld
    exact ⟨hh, by rw [hc, hs]; exact h.due⟩

-- The counters do not rise.
theorem Deps.Budgeted.of_rows (h : D.Budgeted (w, g)) (hw : w'.WellFormed) (hg : w.Grows w')
    (hs : ∀ i, g'.submissions i ≤ g'.calls i) (hc : ∀ i, g'.calls i ≤ g.calls i)
    (hr : ∀ i s', w'.settlement i = some s' →
      (w.settlement i = none ∨ ∃ s, w.settlement i = some s ∧ s'.stellarTxHash = s.stellarTxHash ∧
        (s'.status = .confirmed ∨ g'.calls i = 0 ∨ s.status ≠ .confirmed ∧ s'.retryCount = s.retryCount)) ∧
      (w.settlement i = none → s'.stellarTxHash = none)) : D.Budgeted (w', g') where
  wellFormed := hw
  submissions := hs
  calls i := (hc i).trans (h.calls i)
  absent i hi := by
    cases hn : w.settlement i with
    | none => exact Nat.le_zero.mp <| h.absent i hn ▸ hc i
    | some s =>
      have ⟨s', hs', _⟩ := hg.settlement hn
      cases hi.symm.trans hs'
  covers i s' hs' := by
    have ⟨hr, hn⟩ := hr i s' hs'
    rcases hr with hr | ⟨s, hs, hk, hr⟩
    case inl =>
      have hz : g'.calls i = 0 := Nat.le_zero.mp <| h.absent i hr ▸ hc i
      exact ⟨fun _ => hz ▸ Nat.zero_le _, fun k hk => by cases (hn hr).symm.trans hk⟩
    case inr =>
      have hcv := h.covers i s hs
      refine ⟨fun hns => ?_, fun k hk' => hg.succeeded <| hcv.recorded k (hk ▸ hk')⟩
      rcases hr with hr | hr | ⟨hr, he⟩
      case inl     => exact absurd hr hns
      case inr.inl => exact hr ▸ Nat.zero_le _
      case inr.inr => exact he ▸ (hc i).trans (hcv.count hr)

-- The actions by which a settlement is moved on.
def Act.Moves : Act → Prop
  | .submit _ _ | .transition _ => True
  | .update (.recordAttemptStarted ..) | .update (.scheduleRetry ..) | .update (.refresh ..)
  | .update (.keepPending ..) | .update (.writeStatus ..) => True
  | .createLinked s _ | .createFreeform s _ => s.stellarTxHash ≠ none
  | _ => False

-- A patch that does not concern the columns that matter here.
structure Patch.Aside (d : Patch) : Prop where
  status        : d.status = none
  retryCount    : d.retryCount = none
  stellarTxHash : d.stellarTxHash = none

theorem Deps.Budgeted.of_same_rows (h : D.Budgeted (w, g)) (hw : w'.WellFormed) (hg : w.Grows w')
    (hr : ∀ i, w'.settlement i = (w.settlement i).map f)
    (hf : ∀ s, (f s).status = s.status ∧ (f s).retryCount = s.retryCount ∧ (f s).stellarTxHash = s.stellarTxHash) :
    D.Budgeted (w', g) ∧ Serves (w, g) (w', g) := by
  refine ⟨h.of_rows hw hg h.submissions (fun _ => Nat.le_refl _) fun i s' hs' => ?_, .of_rows hg fun i s hs => ?_⟩
  case refine_1 =>
    have ⟨s, hs, hf'⟩ := Option.map_eq_some_iff.mp <| (hr i).symm.trans hs'
    subst hf'
    have ⟨h₁, h₂, h₃⟩ := hf s
    refine ⟨.inr ⟨s, hs, h₃, ?_⟩, fun hn => by cases hn.symm.trans hs⟩
    by_cases hc : s.status = .confirmed
    case pos => exact .inl (h₁.trans hc)
    case neg => exact .inr <| .inr ⟨hc, h₂⟩
  case refine_2 =>
    have ⟨h₁, h₂, _⟩ := hf s
    exact ⟨f s, by rw [hr, hs]; rfl, ⟨fun hc => h₁.trans hc, fun _ => .inr ⟨h₁, h₂⟩⟩, fun _ => ⟨rfl, rfl⟩⟩

-- A new settlement.
theorem Deps.Budgeted.of_insertion (h : D.Budgeted (w, g)) (hw : w'.WellFormed) (hg : w.Grows w')
    (hn : s.stellarTxHash = none) (hf : w.settlement n = none)
    (hr : ∀ i, w'.settlement i = if i = n then some (w.newSettlement s n) else w.settlement i) :
    D.Budgeted (w', g) ∧ Serves (w, g) (w', g) := by
  refine ⟨h.of_rows hw hg h.submissions (fun _ => Nat.le_refl _) fun i s' hs' => ?_, .of_rows hg fun i s hs => ?_⟩
  case refine_1 =>
    rw [hr] at hs'
    split at hs'
    case isTrue hi =>
      cases hs'
      exact ⟨.inl (hi ▸ hf), fun _ => hn⟩
    case isFalse =>
      refine ⟨.inr ⟨s', hs', rfl, ?_⟩, fun hn => by cases hn.symm.trans hs'⟩
      by_cases hc : s'.status = .confirmed
      case pos => exact .inl hc
      case neg => exact .inr <| .inr ⟨hc, rfl⟩
  case refine_2 =>
    have hi : i ≠ n := fun hi => by cases (hi ▸ hf).symm.trans hs
    exact ⟨s, by rw [hr, if_neg hi, hs], ⟨id, fun _ => .inr ⟨rfl, rfl⟩⟩, fun _ => ⟨rfl, rfl⟩⟩

theorem aside_of_not_moves (h : ¬(Act.update u).Moves) : (∃ i xdr now b, u = .sign i xdr now b) ∨
    (∃ i, u = .expireIntent i) ∨ u.data.Aside := by
  cases u with
  | sign i xdr now b                => exact .inl ⟨i, xdr, now, b, rfl⟩
  | expireIntent i                  => exact .inr <| .inl ⟨i, rfl⟩
  | claimSettlement | claimPendingConfirmation | claimSettlementForSync | release | recoverStale =>
    exact .inr <| .inr ⟨rfl, rfl, rfl⟩
  | recordAttemptStarted | scheduleRetry | refresh | keepPending | writeStatus => exact (h trivial).elim

theorem exec_update {u : Write} {r : Except Failure Nat} (h : D.exec (.update u) x w = some (r, w')) :
    (x.answers = true ∧ (r, w') = w.update u) ∨ (x.answers = false ∧ ∃ e, r = .error e) ∧
      (x.takesEffect = true ∧ w' = (w.update u).2 ∨ x.takesEffect = false ∧ w' = w) := by
  cases x <;> simp only [Deps.exec, perform, Option.some.injEq, Prod.mk.injEq, reduceCtorEq] at h
  case ok    => exact .inl ⟨rfl, h.symm⟩
  case fails => exact .inr ⟨⟨rfl, _, h.1.symm⟩, .inr ⟨rfl, h.2.symm⟩⟩
  case lost  => exact .inr ⟨⟨rfl, _, h.1.symm⟩, .inl ⟨rfl, h.2.symm⟩⟩

theorem update_eq (hu : u.requiresRow = false) : (w.update u).2 = w.patchSettlements u.applies u.data := by
  simp [World.update, hu]

theorem Tally.calls_acceptance (i j : String) : (g.acceptance i).calls j ≤ g.calls j := by
  simp only [acceptance, Function.update_apply]
  split <;> omega

theorem Tally.submissions_acceptance (h : ∀ i, g.submissions i ≤ g.calls i) (i j : String) :
    (g.acceptance i).submissions j ≤ (g.acceptance i).calls j := by
  simp only [acceptance, Function.update_apply]
  split
  case isTrue  => exact Nat.le_refl _
  case isFalse => exact h j

-- An envelope is accepted for a settlement that is not in the hands of the worker.
theorem Deps.Budgeted.accepted (h : D.Budgeted (w, g))
    (ha : w.settlements.any (Write.sign i xdr now b).applies = true)
    (hw' : w' = w.patchSettlements (Write.sign i xdr now b).applies (Write.sign i xdr now b).data) :
    D.Budgeted (w', g.acceptance i) ∧ Serves (w, g) (w', g.acceptance i) := by
  subst hw'
  have ⟨s₀, hs₀, ha₀⟩ := List.any_eq_true.mp ha
  have ⟨hi, hst⟩ := Write.sign_applies_iff.mp ha₀
  have hs₀ : w.settlement i = some s₀ := hi ▸ h.wellFormed.settlement_of_mem hs₀
  have hw := h.wellFormed.patchSettlements (Write.sign i xdr now b).applies (Write.sign i xdr now b).data
  have hg := World.Grows.patchSettlements w (Write.sign i xdr now b).applies (Write.sign i xdr now b).data
  have other {j s} (hj : j ≠ i) (hs : w.settlement j = some s) : (Write.sign i xdr now b).applies s = false := by
    refine Bool.eq_false_iff.mpr fun ha => hj ?_
    exact (Table.key_of_row? hs).symm.trans (Write.sign_applies_iff.mp ha).1
  refine ⟨h.of_rows hw hg (Tally.submissions_acceptance h.submissions i) (Tally.calls_acceptance i)
    fun j s' hs' => ?_, .of_rows hg fun j s hs => ?_⟩
  case refine_1 =>
    rw [World.settlement_patchSettlements] at hs'
    have ⟨s, hs, he⟩ := Option.map_eq_some_iff.mp hs'
    subst he
    refine ⟨.inr ⟨s, hs, ?_, ?_⟩, fun hn => by cases hn.symm.trans hs⟩
    · split <;> rfl
    · by_cases hj : j = i
      case pos => exact .inr <| .inl <| by simp [Tally.acceptance, hj]
      case neg =>
        rw [other hj hs]
        by_cases hc : s.status = .confirmed
        case pos => exact .inl hc
        case neg => exact .inr <| .inr ⟨hc, rfl⟩
  case refine_2 =>
    rw [World.settlement_patchSettlements, hs, Option.map_some]
    by_cases hj : j = i
    case pos =>
      -- A settlement that is pending or has failed is neither confirmed nor held.
      have he : s = s₀ := Option.some.inj <| (hj ▸ hs).symm.trans hs₀
      have hc : s.status ≠ .confirmed := by rcases hst with hst | hst <;> simp [he, hst]
      have hh : s.status ∉ heldStatuses := by rcases hst with hst | hst <;> simp [he, hst, heldStatuses]
      exact ⟨_, rfl, ⟨fun h => (hc h).elim, fun h => (hh h).elim⟩, fun h => (h.elim hc hh).elim⟩
    case neg =>
      rw [other hj hs]
      refine ⟨s, rfl, ⟨id, fun _ => .inr ⟨rfl, rfl⟩⟩, fun _ => ?_⟩
      simp only [Tally.acceptance, Function.update_of_ne hj, and_self]

theorem Deps.Budgeted.expired (h : D.Budgeted (w, g))
    (hw' : w' = w.patchSettlements (Write.expireIntent i).applies (Write.expireIntent i).data) :
    D.Budgeted (w', g) ∧ Serves (w, g) (w', g) := by
  subst hw'
  have hw := h.wellFormed.patchSettlements (Write.expireIntent i).applies (Write.expireIntent i).data
  have hg := World.Grows.patchSettlements w (Write.expireIntent i).applies (Write.expireIntent i).data
  refine ⟨h.of_rows hw hg h.submissions (fun _ => Nat.le_refl _) fun j s' hs' => ?_,
    .of_rows hg fun j s hs => ?_⟩
  case refine_1 =>
    rw [World.settlement_patchSettlements] at hs'
    have ⟨s, hs, he⟩ := Option.map_eq_some_iff.mp hs'
    subst he
    refine ⟨.inr ⟨s, hs, ?_, ?_⟩, fun hn => by cases hn.symm.trans hs⟩
    · split <;> rfl
    · split
      case isTrue ha =>
        have hst := (Write.expireIntent_applies_iff.mp ha).2
        exact .inr <| .inr ⟨by simp [hst], rfl⟩
      case isFalse =>
        by_cases hc : s.status = .confirmed
        case pos => exact .inl hc
        case neg => exact .inr <| .inr ⟨hc, rfl⟩
  case refine_2 =>
    rw [World.settlement_patchSettlements, hs]
    refine ⟨_, rfl, ?_, fun _ => ⟨rfl, rfl⟩⟩
    dsimp only
    split
    case isFalse => exact ⟨id, fun _ => .inr ⟨rfl, rfl⟩⟩
    case isTrue ha =>
      have hst := (Write.expireIntent_applies_iff.mp ha).2
      exact ⟨fun h => by simp [hst] at h, fun h => by simp [hst, heldStatuses] at h⟩

theorem Deps.Budgeted.sign (h : D.Budgeted (w, g))
    (hx : D.exec (.update (.sign i xdr now b)) x w = some (r, w')) :
    D.Budgeted (w', Tally.count (.update (.sign i xdr now b)) x w g) ∧
      Serves (w, g) (w', Tally.count (.update (.sign i xdr now b)) x w g) := by
  have he : x.takesEffect = true ∧ w' = (w.update (.sign i xdr now b)).2 ∨ x.takesEffect = false ∧ w' = w := by
    rcases exec_update hx with ⟨ha, hr⟩ | ⟨_, hr⟩
    case inl => exact .inl ⟨by cases x <;> simp_all [Choice.answers, Choice.takesEffect], (congrArg Prod.snd hr)⟩
    case inr => exact hr
  simp only [Tally.count]
  rcases he with ⟨ht, hw'⟩ | ⟨ht, rfl⟩
  case inr =>
    simp only [ht, Bool.false_eq_true, false_and, if_false]
    exact ⟨h, .refl _⟩
  case inl =>
    rw [update_eq rfl] at hw'
    by_cases ha : w.settlements.any (Write.sign i xdr now b).applies = true
    case pos =>
      rw [if_pos ⟨ht, ha⟩]
      exact h.accepted ha hw'
    case neg =>
      rw [if_neg fun hn => ha hn.2]
      have hg := (Effect.of_exec hx).grows h.wellFormed
      refine h.of_settlements ((Effect.of_exec hx).wellFormed h.wellFormed) hg fun j => ?_
      rw [hw', World.settlement_patchSettlements]
      cases hs : w.settlement j with
      | none   => rfl
      | some s =>
        have hn : (Write.sign i xdr now b).applies s = false :=
          Bool.eq_false_iff.mpr fun hp => ha <| List.any_eq_true.mpr ⟨s, Table.mem_of_row? hs, hp⟩
        simp only [Option.map_some, hn, Bool.false_eq_true, if_false]

theorem Tally.count_of_not_moves (ha : ¬a.Moves) (hs : ∀ i xdr now b, a ≠ .update (.sign i xdr now b)) :
    Tally.count a x w g = g := by
  cases a with
  | submit => exact (ha trivial).elim
  | update u =>
    cases u with
    | recordAttemptStarted => exact (ha trivial).elim
    | sign                 => exact (hs _ _ _ _ rfl).elim
    | _                    => rfl
  | _ => rfl

-- The actions that do not move any settlement are harmless, whoever performs them.
theorem Deps.Budgeted.of_not_moves (h : D.Budgeted (w, g)) (ha : ¬a.Moves)
    (hx : D.exec a x w = some (r, w')) :
    D.Budgeted (w', Tally.count a x w g) ∧ Serves (w, g) (w', Tally.count a x w g) := by
  by_cases hs : ∃ i xdr now b, a = .update (.sign i xdr now b)
  case pos =>
    obtain ⟨i, xdr, now, b, rfl⟩ := hs
    exact h.sign hx
  case neg =>
    rw [Tally.count_of_not_moves ha fun i xdr now b he => hs ⟨i, xdr, now, b, he⟩]
    have he := Effect.of_exec hx
    have hw := he.wellFormed h.wellFormed
    have hg := he.grows h.wellFormed
    cases he with
    | none => exact ⟨h, .refl _⟩
    | allocate | createExpense | settleShare => exact h.of_settlements hw hg fun _ => rfl
    | deleteExpense =>
      refine h.of_same_rows hw hg (World.settlement_removeExpense _) fun s => ?_
      split <;> exact ⟨rfl, rfl, rfl⟩
    | createLinked hf _ _ _ =>
      exact h.of_insertion hw hg (of_not_not ha) (h.wellFormed.settlement_fresh hf List.mem_cons_self)
        (h.wellFormed.settlement_insertSettlement hf _)
    | createFreeform hf _ _ =>
      exact h.of_insertion hw hg (of_not_not ha) (h.wellFormed.settlement_fresh hf List.mem_cons_self)
        (h.wellFormed.settlement_insertSettlement hf _)
    | transition | settle | submit => exact (ha trivial).elim
    | @update u =>
      rcases aside_of_not_moves ha with ⟨i, xdr, now, b, rfl⟩ | ⟨i, rfl⟩ | hd
      case inl => exact (hs ⟨i, xdr, now, b, rfl⟩).elim
      case inr.inl => exact h.expired rfl
      case inr.inr =>
        refine h.of_same_rows hw hg (World.settlement_patchSettlements _ _) fun s => ?_
        split
        case isFalse => exact ⟨rfl, rfl, rfl⟩
        case isTrue  => simp [Settlement.patch, hd.status, hd.retryCount, hd.stellarTxHash]

end Mergepay
