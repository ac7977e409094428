import Mergepay.Anchors.Requests

namespace Mergepay.Anchors

open Concurrency

abbrev AnchorLog :=
  Log AnchorAction AnchorAction.Answer Failure

-- All commits of a program are of a certain kind.
abbrev Within (W : SessionRequest → AnchorLog → Prop) (p : AnchorProg α) : Prop :=
  p.Avoids (Database.Step.Unfit (fun _ _ _ => True) W)

-- Data that do not say which transfer a session is about.
def SessionData.anonymous (data : SessionData) : Bool :=
  data.externalTransactionId = none ∧ data.anchorToken = none

def AnchorAction.routine : AnchorAction → Bool
  | update _ data                                                  => data.anonymous
  | claim _ _ _ _ _ | release _ _ | recoverLeases _ | createAudit _ => true
  | _                                                              => false

-- A kind of commits that includes all of them but those that say which transfer a session is about.
structure Inclusive (W : SessionRequest → AnchorLog → Prop) (i : SessionRequest) : Prop where
  routine {a : AnchorAction} {v : a.Answer} : a.routine = true → W i [⟨a, .ok v⟩]
  creation {userId kind assetCode : String} {log : AnchorLog} {v : AnchorSession} :
    (createSession userId kind assetCode).After log (.done v) → W i log
  change {params : TransitionParams} {log : AnchorLog} {v : AnchorSessionUpdateResult} :
    (∀ data ∈ params.extraData, data.anonymous = true) →
    (applyAnchorSessionTransition params).After log (.done v) → W i log

theorem call_within {W : SessionRequest → AnchorLog → Prop} {i : SessionRequest} (a : AnchorAction) :
    Within W (call i a) :=
  .perform fun h => h trivial

theorem swallow_within {W : SessionRequest → AnchorLog → Prop} {p : AnchorProg α} (h : Within W p) :
    Within W p.swallow :=
  .bind (.attempt h) fun _ => .done ()

theorem buildExtraData_anonymous {D : AnchorDeps} {callback : Sep24Callback} :
    ∀ data ∈ D.buildExtraData callback, data.anonymous = true := by
  intro data h
  have ⟨_, _, h⟩ := Option.map_eq_some_iff.mp h
  exact h ▸ rfl

namespace Inclusive

variable {W : SessionRequest → AnchorLog → Prop} {i : SessionRequest} {D : AnchorDeps} {id : String}
  {job : AnchorSession} {now : Time} {callback : Sep24Callback} (h : Inclusive W i)
include h

theorem statement_within {a : AnchorAction} (ha : a.routine = true) : Within W (statement i a) :=
  Prog.transaction_avoids (fun _ _ _ _ => trivial) fun l v hd => by
    rw [hd.of_perform]
    exact h.routine ha

theorem audit_within (row : AnchorAudit) : Within W (audit i row) :=
  swallow_within <| h.statement_within rfl

theorem transition_within {params : TransitionParams} (hp : ∀ data ∈ params.extraData, data.anonymous = true) :
    Within W (transition i params) :=
  Prog.transaction_avoids (fun _ _ _ _ => trivial) fun _ _ hd => h.change hp hd

theorem start_within {userId publicKey kind assetCode : String} :
    Within W (start i userId publicKey kind assetCode) :=
  .bind (call_within _) fun _ => .bind (call_within _) fun _ =>
    .bind (Prog.transaction_avoids (fun _ _ _ _ => trivial) fun _ _ hd => h.creation hd) fun _ => .done _

theorem applyToSessions_within (sessions : List AnchorSession) (updated : Nat) :
    Within W (applyToSessions D i callback updated sessions) := by
  induction sessions generalizing updated with
  | nil           => exact .done _
  | cons hd tl hi => exact .bind (h.transition_within buildExtraData_anonymous) fun _ => hi _

theorem applySep24Callback_within {service : CallbackService} :
    Within W (applySep24Callback D i service callback) := by
  refine .bind (call_within _) fun sessions => ?_
  split
  · exact .bind (h.audit_within _) fun _ => .done _
  · exact .bind (h.applyToSessions_within _ _) fun _ => .bind (h.audit_within _) fun _ => .done _

theorem scheduleRetry_within {reason : String} : Within W (scheduleRetry D i job now reason) := by
  refine .bind (call_within _) fun _ => .bind (call_within _) fun _ => .bind (h.statement_within rfl) fun _ => ?_
  split
  · refine .bind (h.transition_within fun data hd => ?_) fun _ => .done ()
    cases hd
    rfl
  · exact .done ()

theorem reconcileReport_within {report : PollReport} : Within W (reconcileReport i job now report) := by
  unfold reconcileReport
  split
  · exact .bind (h.statement_within rfl) fun _ => .done ()
  split
  · exact .bind (h.statement_within rfl) fun _ => .done ()
  split
  · exact .done ()
  refine .bind (h.transition_within fun data hd => ?_) fun _ => ?_
  · cases hd
    rfl
  · split
    · exact h.audit_within _
    · exact .done ()

theorem reconcileSingleAnchor_within {transferServer : String} :
    Within W (reconcileSingleAnchor D i transferServer job) := by
  unfold reconcileSingleAnchor
  split
  case h_2 => exact .done ()
  case h_1 =>
    refine .bind (.bind (call_within _) fun _ => .done _) fun result => .bind (call_within _) fun _ => ?_
    split
    case h_1 =>
      refine .bind (h.transition_within fun data hd => ?_) fun _ => .done ()
      cases hd
      rfl
    case h_2 => exact h.scheduleRetry_within
    case h_3 => exact h.reconcileReport_within

theorem reconcileAnchors_within {worker : String} : Within W (reconcileAnchors D i worker) := by
  refine .bind (call_within _) fun _ => .bind (call_within _) fun sessions => ?_
  split
  case isFalse => exact .done ()
  case isTrue =>
    refine .bind (.attempt (call_within _)) fun toml => ?_
    split
    case h_1 => exact .done ()
    case h_2 =>
      refine .forEach (fun job => .bind ?_ fun claimed => ?_) _
      · refine .bind (call_within _) fun _ => .bind (call_within _) fun _ => .bind (.attempt ?_) fun r => ?_
        · exact h.statement_within rfl
        · split
          · exact .done _
          · split
            · exact .done _
            · exact .fail _
      · split
        · refine .bind (swallow_within h.reconcileSingleAnchor_within) fun _ => swallow_within ?_
          exact h.statement_within rfl
        · exact .done ()

theorem recover_within : Within W (recoverStaleAnchorSessions i) :=
  .bind (call_within _) fun _ => h.statement_within rfl

end Inclusive

-- A request that completes a session.
def SessionRequest.Completes (i : SessionRequest) (id : String) : Prop :=
  ∃ userId publicKey xdr, i = .complete userId publicKey id xdr

-- The requests, apart from completions, whose outcome depends on what they have read.
theorem Inclusive.sessionRequest_within {W : SessionRequest → AnchorLog → Prop} {D : AnchorDeps}
    {i : SessionRequest} (hi : Inclusive W i) (h : ∀ id, ¬i.Completes id) : Within W (sessionRequest D i) := by
  cases i with
  | start u p k a        => exact .bind hi.start_within fun _ => .done _
  | complete u p id xdr  => exact (h id ⟨u, p, xdr, rfl⟩).elim
  | callback service cb  => exact .bind hi.applySep24Callback_within fun _ => .done _
  | poll worker          => exact .bind hi.reconcileAnchors_within fun _ => .done _
  | recover              => exact .bind hi.recover_within fun _ => .done _

end Mergepay.Anchors
