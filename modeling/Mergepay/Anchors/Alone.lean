import Mergepay.Anchors.Inclusion
import Mergepay.Anchors.Writes
import Mergepay.Concurrency.Alone

namespace Mergepay.Anchors

open Concurrency

-- What becomes of a session by a transition that is not disturbed.
def TransitionParams.result (params : TransitionParams) (row : AnchorSession) : AnchorSession :=
  match Sep24TransactionStatus.known params.nextStatus with
  | none        => row
  | some target =>
    if target = row.status then params.extraData.elim row row.set
    else if ¬row.status.canTransition target then row
    else if params.expectedCurrentStatus.any (· ≠ row.status.name) then row
    else row.move target (params.extraData.getD {})

-- What becomes of it by a poll of the worker, which has read it as `job`.

section

variable (job : AnchorSession) (now delayMs : Time)

def retryText (reason : String) (attempt : Nat) : String :=
  reason ++ " (retries exhausted after " ++ toString attempt ++ " attempts)"

def AnchorDeps.retried (D : AnchorDeps) (reason : String) (row : AnchorSession) : AnchorSession :=
  let attempt := job.retryCount + 1
  let exhausted := attempt ≥ D.maxAttempts
  let updated := row.set {
    lastPolledAt  := some now
    retryCount    := some attempt
    failureReason := some (some reason)
    errorCategory := some (some (if exhausted then .permanent else .transient))
    nextAttemptAt := some (if exhausted then none else some (now + delayMs))
  }
  if exhausted then
    (sessionFailure job now (retryText reason attempt) (retryText reason attempt)).result updated
  else updated

def PollReport.result (report : PollReport) (row : AnchorSession) : AnchorSession :=
  if ¬report.recognized ∨ report.status = job.status.name then row.set (polled now none)
  else if job.status.isTerminal ∧ ¬(job.status = .error ∧ report.status = "refunded") then row
  else (job.advance now report).result row

def AnchorDeps.poll (D : AnchorDeps) (fetched : Sep24Fetch) (row : AnchorSession) : AnchorSession :=
  match D.pollResult fetched with
  | .failure message .permanent =>
    let reason := D.safeFailureMessage 300 message
    (sessionFailure job now reason reason).result row
  | .failure message _          => D.retried job now delayMs (D.safeFailureMessage 300 message) row
  | .report report              => report.result job now row

end

-- A single session is rewritten.
structure Rewrites (id : String) (f : AnchorSession → AnchorSession) (s s' : AnchorStore) : Prop where
  now    : s'.now = s.now
  own    : s'.session id = (s.session id).map f
  others : ∀ id', id' ≠ id → s'.session id' = s.session id'
  ids    : s'.sessions.map (·.id) = s.sessions.map (·.id)

section

variable {id : String} {f g : AnchorSession → AnchorSession} {s s' s'' : AnchorStore}

theorem Rewrites.of_eq (hn : s'.now = s.now) (hs : s'.sessions = s.sessions)
    (hf : ∀ row, s.session id = some row → f row = row) : Rewrites id f s s' where
  now    := hn
  ids    := by rw [hs]
  others := fun id' _ => by
    rw [AnchorStore.session, hs]
    rfl
  own    := by
    rw [AnchorStore.session, hs]
    change s.session id = _
    cases hr : s.session id with
    | none     => rfl
    | some row => rw [Option.map_some, hf row hr]

theorem Rewrites.of_update {p : AnchorSession → Bool} {h : AnchorSession → AnchorSession} (hn : s'.now = s.now)
    (hs : s'.sessions = Table.update p h s.sessions) (hid : ∀ row, (h row).id = row.id)
    (hp : ∀ row, p row = true → row.id = id)
    (hf : ∀ row, s.session id = some row → (if p row then h row else row) = f row) : Rewrites id f s s' where
  now    := hn
  ids    := hs ▸ Table.map_update hid
  others := fun id' hne => by
    rw [AnchorStore.session, hs, Table.row?_update hid]
    change (s.session id').map _ = _
    cases hr : s.session id' with
    | none     => rfl
    | some row =>
      have hne : ¬p row = true := fun h => hne ((Table.key_of_row? hr).symm.trans (hp row h))
      simp [hne]
  own    := by
    rw [AnchorStore.session, hs, Table.row?_update hid]
    change (s.session id).map _ = _
    cases hr : s.session id with
    | none     => rfl
    | some row => rw [Option.map_some, Option.map_some, hf row hr]

theorem Rewrites.trans (h : Rewrites id f s s') (h' : Rewrites id g s' s'') :
    Rewrites id (fun row => g (f row)) s s'' where
  now    := h'.now.trans h.now
  own    := by
    rw [h'.own, h.own, Option.map_map]
    rfl
  others := fun id' hne => (h'.others id' hne).trans (h.others id' hne)
  ids    := h'.ids.trans h.ids

theorem Rewrites.congr (h : Rewrites id f s s') (hf : ∀ row, s.session id = some row → f row = g row) :
    Rewrites id g s s' where
  now    := h.now
  own    := by
    rw [h.own]
    cases hr : s.session id with
    | none     => rfl
    | some row => rw [Option.map_some, Option.map_some, hf row hr]
  others := h.others
  ids    := h.ids

end

theorem anchorDatabase_lawful : anchorDatabase.Lawful := by
  intro a x s v h
  cases a with
  | createSession =>
    cases x <;> simp [anchorDatabase, anchorAnswer] at h
    exact Option.isNone_iff_eq_none.mpr h
  | updateFrom | claim =>
    cases x <;> simp [anchorDatabase, anchorAnswer] at h
    exact h
  | update id data =>
    cases x <;> simp [anchorDatabase, anchorAnswer] at h
    cases hr : s.session id with
    | none     => simp [hr] at h
    | some row => exact Option.isSome_iff_exists.mpr ⟨row, hr⟩
  | _ => rfl

-- The surroundings of a poll that the anchor answers in a certain way. Nothing else goes wrong.
def answering (fetched : Sep24Fetch) (delayMs : Nat) : AnchorAction → AnchorChoice
  | .fetchSep24Transaction _ _ _ => .fetched fetched
  | .retryDelay _                => .delay delayMs
  | _                            => .plain

abbrev AnchorTx.Returns (p : AnchorTx α) (fetched : Sep24Fetch) (delayMs : Nat)
    (Q : α → AnchorStore → Prop) (s : AnchorStore) : Prop :=
  Prog.Returns anchorDatabase.step (answering fetched delayMs) p Q s

abbrev AnchorProg.Returns (p : AnchorProg α) (fetched : Sep24Fetch) (delayMs : Nat)
    (Q : α → AnchorStore → Prop) (s : AnchorStore) : Prop :=
  Prog.Returns anchorDatabase.exec (Database.Step.choose (answering fetched delayMs) .plain) p Q s

section

variable {fetched : Sep24Fetch} {delayMs : Nat} {s : AnchorStore} {i : SessionRequest} {row : AnchorSession}
  {params : TransitionParams}

theorem findSession_returns {Q : AnchorSession → AnchorStore → Prop}
    (hr : s.session params.sessionId = some row) (ho : params.ownerUserId = none) (hq : Q row s) :
    AnchorTx.Returns (findSession params) fetched delayMs Q s := by
  refine .bind (.perform rfl ?_)
  simp only [hr, ho]
  exact .done hq

theorem update_rewrites {id : String} {data : SessionData} :
    Rewrites id (·.set data) s (anchorEffect (.update id data) s) := by
  refine .of_update rfl rfl (fun _ => rfl) (fun row h => of_decide_eq_true h) fun row hr => ?_
  rw [if_pos (decide_eq_true (Table.key_of_row? hr))]

theorem changeStatus_returns {target : Sep24TransactionStatus} (hr : s.session params.sessionId = some row) :
    AnchorTx.Returns (changeStatus params row target) fetched delayMs
      (fun _ => Rewrites params.sessionId (·.move target (params.extraData.getD {})) s) s := by
  have hid : row.id = params.sessionId := Table.key_of_row? hr
  have hx : anchorDatabase.step (.updateFrom params.sessionId row.status target (params.extraData.getD {}))
      .plain s = some (.ok (), anchorEffect (.updateFrom params.sessionId row.status target
        (params.extraData.getD {})) s) := by
    simp [Database.step, anchorDatabase, anchorAnswer, hr, Database.apply]
  refine .bind <| .attempt <| .perform hx ?_
  refine .bind <| .perform rfl <| .bind <| .perform rfl <| .bind <| .perform rfl <| .done ?_
  refine .of_update rfl rfl (fun _ => rfl) (fun row h => (of_decide_eq_true h).1) fun row' hr' => ?_
  cases hr.symm.trans hr'
  simp [hid]

theorem applyAnchorSessionTransition_returns (hr : s.session params.sessionId = some row)
    (ho : params.ownerUserId = none) :
    AnchorTx.Returns (applyAnchorSessionTransition params) fetched delayMs
      (fun _ => Rewrites params.sessionId params.result s) s := by
  have same (h : params.result row = row) : Rewrites params.sessionId params.result s s :=
    .of_eq rfl rfl fun row' hr' => by
      cases hr.symm.trans hr'
      exact h
  refine .bind <| findSession_returns hr ho ?_
  split
  case h_1 hk => exact .done <| same (by rw [TransitionParams.result, hk])
  case h_2 target hk =>
    split
    case isTrue he =>
      unfold keepStatus
      split
      case h_1 hd => exact .done <| same (by simp [TransitionParams.result, hk, he, hd])
      case h_2 data hd =>
        have hx : anchorDatabase.step (.update params.sessionId data) .plain s =
            some (.ok (row.set data), anchorEffect (.update params.sessionId data) s) := by
          simp [Database.step, anchorDatabase, anchorAnswer, hr, Database.apply]
        refine .bind <| .perform hx <| .done <| update_rewrites.congr fun row' hr' => ?_
        cases hr.symm.trans hr'
        simp [TransitionParams.result, hk, he, hd]
    case isFalse hne =>
      split
      case isTrue hc => exact .done <| same (by simp only [TransitionParams.result, hk, if_neg hne, if_pos hc])
      case isFalse hc =>
        split
        case isTrue hx =>
          exact .done <| same (by simp only [TransitionParams.result, hk, if_neg hne, if_neg hc, if_pos hx])
        case isFalse hx =>
          refine (changeStatus_returns hr).mono fun _ _ h => h.congr fun row' hr' => ?_
          cases hr.symm.trans hr'
          simp only [TransitionParams.result, hk, if_neg hne, if_neg hc, if_neg hx]

theorem transition_returns (hr : s.session params.sessionId = some row) (ho : params.ownerUserId = none) :
    AnchorProg.Returns (transition i params) fetched delayMs
      (fun _ => Rewrites params.sessionId params.result s) s :=
  Database.returns_transaction anchorDatabase_lawful rfl (applyAnchorSessionTransition_returns hr ho)

theorem update_returns {id : String} {data : SessionData} (hr : s.session id = some row) :
    AnchorProg.Returns (statement i (.update id data)) fetched delayMs (fun _ => Rewrites id (·.set data) s) s := by
  have hx : anchorDatabase.step (.update id data) .plain s =
      some (.ok (row.set data), anchorEffect (.update id data) s) := by
    simp [Database.step, anchorDatabase, anchorAnswer, hr, Database.apply]
  exact Database.returns_transaction anchorDatabase_lawful rfl (.perform hx update_rewrites)

theorem audit_returns {audit : AnchorAudit} {Q : Unit → AnchorStore → Prop}
    (hq : Q () { s with audits := s.audits ++ [audit] }) :
    AnchorProg.Returns (Anchors.audit i audit) fetched delayMs Q s :=
  .swallow <| Database.returns_transaction anchorDatabase_lawful rfl (.perform rfl hq)

theorem reconcileReport_returns {job : AnchorSession} {now : Time} {report : PollReport}
    (hr : s.session job.id = some row) : AnchorProg.Returns (reconcileReport i job now report) fetched delayMs
      (fun _ => Rewrites job.id (report.result job now) s) s := by
  unfold reconcileReport
  split
  case isTrue hu =>
    refine .bind <| (update_returns hr).mono fun _ _ h => .done <| h.congr fun row _ => ?_
    rw [PollReport.result, if_pos (.inl hu)]
  case isFalse hu =>
    split
    case isTrue he =>
      refine .bind <| (update_returns hr).mono fun _ _ h => .done <| h.congr fun row _ => ?_
      rw [PollReport.result, if_pos (.inr he)]
    case isFalse he =>
      have hn : ¬(¬report.recognized = true ∨ report.status = job.status.name) := not_or.mpr ⟨hu, he⟩
      split
      case isTrue ht =>
        refine .done <| .of_eq rfl rfl fun row _ => ?_
        rw [PollReport.result, if_neg hn, if_pos ht]
      case isFalse ht =>
        refine .bind <| (transition_returns hr rfl).mono fun updated s' h => ?_
        have h : Rewrites job.id (report.result job now) s s' := h.congr fun row _ => by
          rw [PollReport.result, if_neg hn, if_neg ht]
        split
        · exact audit_returns ⟨h.now, h.own, h.others, h.ids⟩
        · exact .done h

theorem scheduleRetry_returns {D : AnchorDeps} {job : AnchorSession} {reason : String}
    (hr : s.session job.id = some row) :
    AnchorProg.Returns (scheduleRetry D i job s.now reason) fetched delayMs
      (fun _ => Rewrites job.id (D.retried job s.now delayMs reason) s) s := by
  refine .bind <| Database.returns_read rfl <| .bind <| Database.returns_read rfl <| .bind <|
    (update_returns hr).mono fun _ s₁ h => ?_
  split
  case isFalse he =>
    refine .done <| h.congr fun row _ => ?_
    simp only [AnchorDeps.retried, if_neg he]
  case isTrue he =>
    have hr₁ := h.own
    rw [hr, Option.map_some] at hr₁
    refine .bind <| (transition_returns hr₁ rfl).mono fun _ s₂ h' => .done <| (h.trans h').congr fun row _ => ?_
    simp only [AnchorDeps.retried, if_pos he, retryText]

-- Any poll that is not disturbed comes to an end.
theorem reconcileSingleAnchor_returns {D : AnchorDeps} {job : AnchorSession} {transferServer token id : String}
    (ht : job.anchorToken.bind Money.present = some token)
    (hx : job.externalTransactionId.bind Money.present = some id) (hr : s.session job.id = some row) :
    AnchorProg.Returns (reconcileSingleAnchor D i transferServer job) fetched delayMs
      (fun _ => Rewrites job.id (D.poll job s.now delayMs fetched) s) s := by
  simp only [reconcileSingleAnchor, ht, hx, pollTransaction, Prog.bind_eq]
  refine .bind <| .bind <| Database.returns_read rfl <| .done <| .bind <| Database.returns_read rfl ?_
  split
  case h_1 message hp =>
    refine .bind <| (transition_returns hr rfl).mono fun _ _ h => .done <| h.congr fun row _ => ?_
    simp only [AnchorDeps.poll, hp]
  case h_2 message category hn hp =>
    refine (scheduleRetry_returns hr).mono fun _ _ h => h.congr fun row _ => ?_
    simp only [AnchorDeps.poll, hp]
  case h_3 report hp =>
    refine (reconcileReport_returns hr).mono fun _ _ h => h.congr fun row _ => ?_
    simp only [AnchorDeps.poll, hp]

-- A poll of a session that is claimed for it, and released afterwards.
def AnchorDeps.cycle (D : AnchorDeps) (worker : String) (job : AnchorSession) (now delayMs : Time)
    (fetched : Sep24Fetch) (row : AnchorSession) : AnchorSession :=
  let polled := D.poll job now delayMs fetched (row.claim worker now (now + D.leaseTimeoutMs))
  if polled.claimedBy = some worker then polled.release else polled

theorem claim_returns {D : AnchorDeps} {worker : String} {job : AnchorSession}
    {Q : Bool → AnchorStore → Prop} (hr : s.session job.id = some job) (he : job.eligible s.now = true)
    (hq : ∀ s', Rewrites job.id (·.claim worker s.now (s.now + D.leaseTimeoutMs)) s s' → Q true s') :
    AnchorProg.Returns (claimAnchorSession D i worker job) fetched delayMs Q s := by
  have hc : s.claimable job.id job.retryCount s.now = true := by
    rw [AnchorStore.claimable, hr, Option.any_some]
    exact decide_eq_true ⟨rfl, he⟩
  have hx : anchorDatabase.step (.claim job.id job.retryCount worker s.now (s.now + D.leaseTimeoutMs)) .plain s =
      some (.ok (), anchorEffect (.claim job.id job.retryCount worker s.now (s.now + D.leaseTimeoutMs)) s) := by
    simp [Database.step, anchorDatabase, anchorAnswer, hc, Database.apply]
  refine .bind <| Database.returns_read rfl <| .bind <| Database.returns_read rfl <| .bind <| .attempt <|
    Database.returns_transaction anchorDatabase_lawful rfl <| .perform hx <| .done <| hq _ ?_
  refine .of_update rfl rfl (fun _ => rfl) (fun row h => (of_decide_eq_true h).1) fun row hrow => ?_
  cases hr.symm.trans hrow
  exact if_pos (decide_eq_true ⟨rfl, rfl, he⟩)

theorem reconcileClaimed_returns {D : AnchorDeps} {worker transferServer token id : String}
    {job : AnchorSession} (ht : job.anchorToken.bind Money.present = some token)
    (hx : job.externalTransactionId.bind Money.present = some id) (hr : s.session job.id = some job)
    (he : job.eligible s.now = true) :
    AnchorProg.Returns (reconcileClaimed D i worker transferServer job) fetched delayMs
      (fun _ => Rewrites job.id (D.cycle worker job s.now delayMs fetched) s) s := by
  refine .bind <| claim_returns hr he fun s₁ h₁ => ?_
  have hr₁ := h₁.own
  rw [hr, Option.map_some] at hr₁
  refine .bind <| .swallow <| (reconcileSingleAnchor_returns ht hx hr₁).mono fun _ s₂ h₂ => .swallow ?_
  refine Database.returns_transaction anchorDatabase_lawful rfl <| .perform rfl ?_
  have h₃ : Rewrites job.id (fun row => if row.claimedBy = some worker then row.release else row) s₂
      (anchorEffect (.release job.id worker) s₂) := by
    refine .of_update rfl rfl (fun _ => rfl) (fun row h => (of_decide_eq_true h).1) fun row hrow => ?_
    have hid : row.id = job.id := Table.key_of_row? hrow
    simp [hid]
  exact h₁.now ▸ (h₁.trans h₂).trans h₃

end

end Mergepay.Anchors
