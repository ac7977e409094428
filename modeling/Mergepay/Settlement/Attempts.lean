import Mergepay.Concurrency.Chronicle
import Mergepay.Settlement.Reconciliation

namespace Mergepay

open Concurrency Chronicle

-- The actions by which a settlement is claimed, moved on or released.
def Act.Reserved : Act → Prop
  | .submit _ _ | .transition _ => True
  | .update (.sign ..) | .update (.expireIntent _) => False
  | .update _ => True
  | .createLinked s _ | .createFreeform s _ => s.stellarTxHash ≠ none
  | _ => False

-- A patch that leaves the lease on a settlement as it is.
structure Patch.Unleased (d : Patch) : Prop where
  claimedBy      : d.claimedBy = none
  leaseExpiresAt : d.leaseExpiresAt = none

-- The transitions that are made by the worker after `m` attempts.
structure TransitionParams.Fits (p : TransitionParams) (m : Nat) : Prop where
  next       : p.nextStatus ∈ [SettlementStatus.verifying, .confirmed, .needsReview, .failed]
  status     : (p.extraData.getD {}).status = none
  unleased   : (p.extraData.getD {}).Unleased
  retryCount : p.nextStatus = .confirmed ∧ (p.extraData.getD {}).retryCount = some 0 ∨
    (p.extraData.getD {}).retryCount = none ∨ (p.extraData.getD {}).retryCount = some m

-- Assertions about a worker `k` and the settlement it works on, of which it has recorded `m` attempts, and how its
-- actions keep them. `armed` holds between the record of an attempt and its submission. `known` is what it finds
-- out about a transaction. If it `recovers`, the settlement is still in its hands after it could not be failed.
structure Attempting (D : Deps) {γ : Type} {K : Chronicle D.system γ} (T : K.Contract) (k : String) where
  held      : String → Nat → World × γ → Prop
  armed     : String → Nat → World × γ → Prop
  known     : String → World × γ → Prop
  confirmed : String → World × γ → Prop
  recovers  : Prop
  disarm {i : String} {m : Nat} {s : World × γ} : armed i m s → held i m s
  frame {α : Type} {p : M α} {Q : α → World × γ → Prop} {E : Failure → World × γ → Prop} {h : String}
    {s : World × γ} : T.Secure (.processSubmittedSettlements k) p Q E s → known h s →
      T.Secure (.processSubmittedSettlements k) p (fun a s => Q a s ∧ known h s) (fun e s => E e s ∧ known h s) s
  idle {a : Act} {s : World × γ} : ¬a.Reserved → T.Fine (.processSubmittedSettlements k) (act a) s
  hold {a : Act} {i : String} {m : Nat} {s : World × γ} : ¬a.Reserved → held i m s →
    T.Secure (.processSubmittedSettlements k) (act a) (fun _ => held i m) (fun _ => held i m) s
  aim {a : Act} {i : String} {m : Nat} {s : World × γ} : ¬a.Reserved → armed i m s →
    T.Secure (.processSubmittedSettlements k) (act a) (fun _ => armed i m) (fun _ => armed i m) s
  claim {job : Job} {s : World × γ} : T.Secure (.processSubmittedSettlements k) (claimSettlement D k job)
    (fun b s => b = true → held job.id job.retryCount s) (fun _ _ => True) s
  release {i : String} {s : World × γ} : T.Fine (.processSubmittedSettlements k) (act (.update (.release i k))) s
  start {job : Job} {m : Nat} {s : World × γ} : m + 1 ≤ D.settlementMaxAttempts → held job.id m s →
    T.Secure (.processSubmittedSettlements k) (recordAttemptStarted D job (m + 1))
      (fun _ => armed job.id (m + 1)) (fun _ _ => True) s
  submit {i xdr : String} {m : Nat} {s : World × γ} : armed i m s →
    T.Secure (.processSubmittedSettlements k) (act (.submit i xdr)) (fun h s => held i m s ∧ known h s)
      (fun _ => held i m) s
  retry {job : Job} {m : Nat} {c : JobFailureCategory} {reason : String} {delay : Time} {s : World × γ} :
    held job.id m s → T.Secure (.processSubmittedSettlements k) (scheduleRetry D job m c reason delay)
      (fun _ => held job.id m) (fun _ _ => True) s
  row {i : String} {m : Nat} {s : World × γ} : held i m s →
    T.Secure (.processSubmittedSettlements k) (act (.findSettlement i))
      (fun v s => held i m s ∧ ∀ r, v = some r → r.status = .confirmed → confirmed i s) (fun _ => held i m) s
  refresh {i : String} {d : Patch} {c : Caller} {m : Nat} {s : World × γ} : d.status = none → d.Unleased →
    (d.retryCount = some 0 ∧ confirmed i s ∨ d.retryCount = none ∨ d.retryCount = some m) → held i m s →
    (∀ h, d.stellarTxHash = some (some h) → known h s) →
    T.Secure (.processSubmittedSettlements k) (act (.update (.refresh i d c)))
      (fun _ => held i m) (fun _ => held i m) s
  transition {t : Transition} {m : Nat} {s : World × γ} :
    t.nextStatus ∈ [SettlementStatus.verifying, .confirmed, .needsReview, .failed] → t.extraData.Unleased →
    (t.nextStatus = .confirmed ∨ t.extraData.retryCount = none ∨ t.extraData.retryCount = some m) →
    held t.settlementId m s → (∀ h, t.extraData.stellarTxHash = some (some h) → known h s) →
    T.Secure (.processSubmittedSettlements k) (act (.transition t))
      (fun _ s => (t.nextStatus = .failed → recovers) → held t.settlementId m s)
      (fun _ s => (t.nextStatus = .failed → recovers) → held t.settlementId m s) s
  find {i h : String} {m : Nat} {s : World × γ} : held i m s →
    T.Secure (.processSubmittedSettlements k) (act (.getTransaction h))
      (fun v s => held i m s ∧ (v = some true → known h s)) (fun _ => held i m) s
  found {i h : String} {m : Nat} {s : World × γ} : held i m s → known h s →
    T.Secure (.processSubmittedSettlements k) (act (.getTransaction h))
      (fun v s => (held i m s ∧ known h s) ∧ (v = some false → recovers)) (fun _ s => held i m s ∧ known h s) s

namespace Attempting

variable {D : Deps} {γ : Type} {K : Chronicle D.system γ} {T : K.Contract} {k : String} (A : Attempting D T k)
  {job : Job} {i hash : String} {m : Nat} {s : World × γ}

abbrev Runs (_ : Attempting D T k) (p : M α) (Q : α → World × γ → Prop) (E : Failure → World × γ → Prop)
    (s : World × γ) : Prop :=
  T.Secure (.processSubmittedSettlements k) p Q E s

def Named (d : Patch) (s : World × γ) : Prop :=
  ∀ h, d.stellarTxHash = some (some h) → A.known h s

theorem lift {x : Except Failure α} {Q : α → World × γ → Prop} {E : Failure → World × γ → Prop}
    (hq : ∀ a, Q a s) (he : ∀ a, E a s) : A.Runs (lift x) Q E s := by
  cases x with
  | ok a    => exact hq a
  | error a => exact he a

-- What an update names is known throughout, since it names at most one transaction.
theorem named {p : M α} {Q : α → World × γ → Prop} {E : Failure → World × γ → Prop} (h : A.Runs p Q E s)
    (hk : A.Named d s) : A.Runs p (fun a s => Q a s ∧ A.Named d s) (fun e s => E e s ∧ A.Named d s) s := by
  by_cases hd : ∃ h, d.stellarTxHash = some (some h)
  case pos =>
    obtain ⟨h', hd⟩ := hd
    have one {s} (hk : A.known h' s) : A.Named d s := fun h₁ h₂ => by
      cases hd.symm.trans h₂
      exact hk
    exact (A.frame h (hk h' hd)).mono (fun _ _ h => ⟨h.1, one h.2⟩) fun _ _ h => ⟨h.1, one h.2⟩
  case neg =>
    have no {s} : A.Named d s := fun h₁ h₂ => (hd ⟨h₁, h₂⟩).elim
    exact h.mono (fun _ _ h => ⟨h, no⟩) fun _ _ h => ⟨h, no⟩

theorem applySettlementTransition {p : TransitionParams} (hp : p.Fits m) (h : A.held p.settlementId m s)
    (hk : A.Named (p.extraData.getD {}) s) : A.Runs (applySettlementTransition p)
      (fun _ s => (p.nextStatus = .failed → A.recovers) → A.held p.settlementId m s)
      (fun _ s => (p.nextStatus = .failed → A.recovers) → A.held p.settlementId m s) s := by
  unfold Mergepay.applySettlementTransition
  refine .bind <| (A.named (A.row h) hk).mono (fun v s ⟨⟨h, hc⟩, hk⟩ => ?_) fun _ _ h _ => h.1
  cases v with
  | none   => exact fun _ => h
  | some r =>
    simp only [Prog.bind_eq, Prog.throw_eq, Prog.fail_bind, Prog.pure_eq]
    split
    case isTrue => exact fun _ => h
    case isFalse =>
      split
      case isTrue hst =>
        split
        case h_2 => exact fun _ => h
        case h_1 d hd =>
          have hd : p.extraData.getD {} = d := by rw [hd, Option.getD_some]
          refine .bind <| (A.refresh (hd ▸ hp.status) (hd ▸ hp.unleased) ?_ h (hd ▸ hk)).mono (fun _ _ h _ => h)
            fun _ _ h _ => h
          rcases hp.retryCount with ⟨hn, hr⟩ | hr
          case inl => exact .inl ⟨hd ▸ hr, hc r rfl (hst ▸ hn)⟩
          case inr => exact .inr (hd ▸ hr)
      case isFalse =>
        split
        case isTrue => exact fun _ => h
        case isFalse =>
          refine .bind <| (A.named (A.hold id h) hk).mono (fun now s ⟨h, hk⟩ => ?_) fun _ _ h _ => h.1
          exact .bind <| (A.transition (t := ⟨_, _, _, _, _, _⟩) hp.next hp.unleased (hp.retryCount.imp_left And.left)
            h hk).mono (fun _ _ h => h) fun _ _ h => h

theorem transitionSettlement (hn : nextStatus ∈ [SettlementStatus.verifying, .confirmed, .needsReview])
    {d : Option Patch} (hs : (d.getD {}).status = none) (hu : (d.getD {}).Unleased)
    (hd : nextStatus = .confirmed ∧ (d.getD {}).retryCount = some 0 ∨ (d.getD {}).retryCount = none) (h : A.held job.id m s)
    (hk : A.Named (d.getD {}) s) : A.Runs (transitionSettlement job nextStatus d b why)
      (fun _ => A.held job.id m) (fun _ => A.held job.id m) s := by
  have hf : nextStatus = .failed → A.recovers := fun hf => by simp [hf] at hn
  have hp : (⟨job.id, nextStatus, .job job.transactionXdr why, d, none, b⟩ : TransitionParams).Fits m :=
    ⟨by simp only [List.mem_cons, List.not_mem_nil, or_false] at hn ⊢; tauto, hs, hu, hd.imp_right .inl⟩
  exact .bind <| (A.applySettlementTransition hp h hk).mono (fun _ _ h => h hf) fun _ _ h => h hf

theorem failSettlement (h : A.held job.id m s) : A.Runs (failSettlement job m c reason f why)
    (fun _ _ => True) (fun _ s => A.recovers → A.held job.id m s) s := by
  refine .bind <| (A.hold id h).mono (fun now s h => ?_) fun _ _ h _ => h
  refine .bind <| (A.applySettlementTransition ⟨?_, rfl, ⟨rfl, rfl⟩, .inr (.inr rfl)⟩ h fun _ hk => by cases hk).mono
    (fun _ _ _ => trivial) fun _ _ h hr => h fun _ => hr
  simp

theorem pollForConfirmation (h : A.held job.id m s) (hk : A.known hash s) (j : Nat) :
    A.Runs (pollForConfirmation hash j)
      (fun c s => (c = .failed → A.recovers) ∧ A.held job.id m s ∧ A.known hash s) (fun _ _ => False) s := by
  induction j generalizing s with
  | zero => exact ⟨nofun, h, hk⟩
  | succ j hi =>
    unfold Mergepay.pollForConfirmation
    simp only [Prog.bind_eq, Prog.pure_eq]
    refine .bind <| .attempt <| (A.found h hk).mono (fun v s ⟨⟨h, hk⟩, hv⟩ => ?_) fun e s ⟨h, hk⟩ => ?_
    case refine_1 =>
      rcases v with _ | _ | _
      case none =>
        dsimp only
        split
        case isTrue  => exact ⟨nofun, h, hk⟩
        case isFalse => exact hi h hk
      case some.false => exact ⟨fun _ => hv rfl, h, hk⟩
      case some.true  => exact ⟨nofun, h, hk⟩
    case refine_2 =>
      dsimp only
      split
      case isTrue  => exact ⟨nofun, h, hk⟩
      case isFalse => exact hi h hk

theorem named_of_known {d : Patch} (hd : d.stellarTxHash = some (some hash)) (hk : A.known hash s) : A.Named d s := by
  intro k hk'
  rw [hd] at hk'
  cases hk'
  exact hk

theorem confirmSubmission (h : A.held job.id m s) (hk : A.known hash s) :
    A.Runs (confirmSubmission D job hash m) (fun _ _ => True) (fun _ => A.held job.id m) s := by
  refine .bind <| (A.frame (A.transitionSettlement (by simp) rfl ⟨rfl, rfl⟩ (.inr rfl) h (A.named_of_known rfl hk)) hk).mono
    (fun _ s ⟨h, hk⟩ => ?_) fun _ _ h => h.1
  refine .bind <| (A.pollForConfirmation h hk _).mono (fun c s ⟨hc, h, hk⟩ => ?_) fun _ _ h => h.elim
  cases c with
  | failed    => exact (A.failSettlement h).mono (fun _ _ h => h) fun _ _ h => h (hc rfl)
  | confirmed =>
    exact (A.transitionSettlement (by simp) rfl ⟨rfl, rfl⟩ (.inl ⟨rfl, rfl⟩) h (A.named_of_known rfl hk)).mono
      (fun _ _ _ => trivial) fun _ _ h => h
  | notFound | timeout =>
    exact (A.transitionSettlement (by simp) rfl ⟨rfl, rfl⟩ (.inr rfl) h (A.named_of_known rfl hk)).mono
      (fun _ _ _ => trivial) fun _ _ h => h

theorem submitPayment (h : A.armed job.id m s) : A.Runs (submitPayment D job xdr)
    (fun hash s => A.held job.id m s ∧ A.known hash s) (fun _ => A.held job.id m) s := by
  refine .bind <| .bind <| (A.aim id h).mono (fun _ s h => ?_) fun _ _ h => A.disarm h
  refine .bind <| (A.aim id h).mono (fun _ s h => ?_) fun _ _ h => A.disarm h
  refine .bind <| (A.aim id h).mono (fun _ s h => ?_) fun _ _ h => A.disarm h
  exact A.lift (fun _ => A.submit h) fun _ => A.disarm h

theorem alreadyApplied (h : A.held job.id m s) : A.Runs (alreadyApplied D job)
    (fun o s => A.held job.id m s ∧ ∀ k, o = some (k, true) → A.known k s) (fun _ _ => False) s := by
  unfold Mergepay.alreadyApplied
  split
  case h_1 => exact ⟨h, fun _ => nofun⟩
  case h_2 xdr _ =>
    refine .bind <| .attempt <| (A.find h).mono (fun v s ⟨h, hv⟩ => ?_) fun e s h => ⟨h, fun _ => nofun⟩
    cases v with
    | none   => exact ⟨h, fun _ => nofun⟩
    | some b => exact ⟨h, fun k hk => by cases hk; exact hv rfl⟩

theorem giveUpOrRetry (h : A.held job.id m s) : A.Runs (handleFailure.giveUpOrRetry D job m e reason f category)
    (fun b s => b = true → A.held job.id m s) (fun _ _ => True) s := by
  unfold handleFailure.giveUpOrRetry
  split
  case isTrue => exact .bind <| (A.failSettlement h).mono (fun _ _ _ => nofun) fun _ _ _ => trivial
  case isFalse =>
    split
    case isTrue => exact .bind <| (A.failSettlement h).mono (fun _ _ _ => nofun) fun _ _ _ => trivial
    case isFalse =>
      refine .bind <| (A.hold id h).mono (fun _ s h => ?_) fun _ _ _ => trivial
      exact .bind <| (A.retry h).mono (fun _ _ h _ => h) fun _ _ h => h

theorem handleFailure (h : A.held job.id m s) : A.Runs (handleFailure D job m e)
    (fun b s => b = true → A.held job.id m s) (fun _ _ => True) s := by
  unfold Mergepay.handleFailure
  simp only [Prog.bind_eq, Prog.pure_eq]
  split
  case isFalse => exact A.giveUpOrRetry h
  case isTrue =>
    refine .bind <| (A.alreadyApplied h).mono (fun o s ⟨h, hk⟩ => ?_) fun _ _ h => h.elim
    split
    case h_3 => exact A.giveUpOrRetry h
    case h_1 =>
      exact .bind <| (A.transitionSettlement (by simp) rfl ⟨rfl, rfl⟩ (.inl ⟨rfl, rfl⟩) h
        (A.named_of_known rfl (hk _ rfl))).mono (fun _ _ _ => nofun) fun _ _ _ => trivial
    case h_2 => exact .bind <| (A.failSettlement h).mono (fun _ _ _ => nofun) fun _ _ _ => trivial

-- The induction is on the number of remaining attempts. Each of them starts from what the last one left.
theorem attempts (remaining : Nat) (hm : m + remaining ≤ D.settlementMaxAttempts) (h : A.held job.id m s) :
    A.Runs (attempts D job xdr m remaining) (fun _ _ => True) (fun _ _ => True) s := by
  induction remaining generalizing m s with
  | zero => trivial
  | succ remaining hi =>
    unfold Mergepay.attempts
    have retry {e s} (h : A.held job.id (m + 1) s) : A.Runs (do
        if ← Mergepay.handleFailure D job (m + 1) e then Mergepay.attempts D job xdr (m + 1) remaining)
        (fun _ _ => True) (fun _ _ => True) s := by
      refine .bind <| (A.handleFailure h).mono (fun b s h => ?_) fun _ _ h => h
      cases b with
      | true  => exact hi (by omega) (h rfl)
      | false => trivial
    refine .bind <| (A.start (by omega) h).mono (fun _ s h => ?_) fun _ _ h => h
    refine .bind <| .attempt <| .bind <| (A.submitPayment h).mono (fun hash s ⟨h, hk⟩ => ?_) fun e s h => retry h
    exact (A.confirmSubmission h hk).mono (fun _ _ _ => trivial) fun e s h => retry h

theorem checkSettlementPreflight (h : A.held job.id m s) : A.Runs (checkSettlementPreflight job)
    (fun _ => A.held job.id m) (fun _ _ => True) s := by
  refine .bind <| (A.hold id h).mono (fun _ s h => ?_) fun _ _ _ => trivial
  exact .bind <| .attempt <| (A.hold id h).mono (fun _ _ h => h) fun _ _ h => h

theorem processSettlementJob (h : A.held job.id job.retryCount s) :
    A.Runs (processSettlementJob D job) (fun _ _ => True) (fun _ _ => True) s := by
  have fails {s c reason f why} (h : A.held job.id job.retryCount s) :
      A.Runs (Mergepay.failSettlement job job.retryCount c reason f why) (fun _ _ => True) (fun _ _ => True) s :=
    (A.failSettlement h).mono (fun _ _ h => h) fun _ _ _ => trivial
  unfold Mergepay.processSettlementJob
  simp only [Prog.bind_eq, Prog.pure_eq]
  split
  case isTrue => exact .bind <| (fails h).mono (fun _ _ _ => trivial) fun _ _ h => h
  case isFalse hmax =>
    have hm : job.retryCount + (D.settlementMaxAttempts - job.retryCount) ≤ D.settlementMaxAttempts := by omega
    split
    case h_2 => exact fails h
    case h_1 xdr _ =>
      have rest {s} (h : A.held job.id job.retryCount s) : A.Runs (if job.status = .submitted
            then Prog.bind (Mergepay.transitionSettlement job .verifying none false .pickedUp) fun _ =>
              Mergepay.attempts D job xdr job.retryCount (D.settlementMaxAttempts - job.retryCount)
            else Mergepay.attempts D job xdr job.retryCount (D.settlementMaxAttempts - job.retryCount))
          (fun _ _ => True) (fun _ _ => True) s := by
        split
        case isTrue =>
          exact .bind <| (A.transitionSettlement (by simp) rfl ⟨rfl, rfl⟩ (.inr rfl) h fun _ hk => by cases hk).mono
            (fun _ _ h => A.attempts _ hm h) fun _ _ _ => trivial
        case isFalse => exact A.attempts _ hm h
      refine .bind <| (A.hold id h).mono (fun now s h => ?_) fun _ _ _ => trivial
      split
      case isTrue => exact .bind <| (fails h).mono (fun _ _ _ => trivial) fun _ _ h => h
      case isFalse =>
        refine .bind <| (A.checkSettlementPreflight h).mono (fun o s h => ?_) fun _ _ h => h
        split
        case h_1 =>
          split
          case isTrue  => exact .bind <| (fails h).mono (fun _ _ _ => trivial) fun _ _ h => h
          case isFalse => exact rest h
        case h_2 => exact rest h

include A in
-- A cycle of the worker.
theorem processSubmittedSettlements :
    T.Fine (.processSubmittedSettlements k) (processSubmittedSettlements D k) s := by
  refine .bind <| (A.idle id).mono (fun now s _ => ?_) fun _ _ h => h
  refine .bind <| (A.idle id).mono (fun rows s _ => ?_) fun _ _ h => h
  refine .forEach (fun job s _ => ?_) rows trivial
  refine .bind <| A.claim.mono (fun b s h => ?_) fun _ _ h => h
  cases b with
  | false => trivial
  | true =>
    refine .bind <| .swallow <| (A.processSettlementJob (h rfl)).mono (fun _ s _ => ?_) fun _ s _ => ?_
    all_goals exact .swallow A.release

end Attempting

end Mergepay
