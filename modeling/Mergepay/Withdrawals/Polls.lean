import Mergepay.Concurrency.Alone
import Mergepay.Data.Budget
import Mergepay.Withdrawals.Runs

namespace Mergepay.Withdrawals

open Concurrency Budget Money

def PollResult.outcome : PollResult → Outcome
  | status _             => .answered
  | failure _ .permanent => .rejected
  | failure _ _          => .failed

-- A withdrawal that has failed for good, although the anchor has not said so.
def Withdrawal.deadLettered (w : Withdrawal) (result : PollResult) : Bool :=
  result.outcome ≠ .rejected ∧ w.status = .failed ∧ w.errorCategory = some .permanent

theorem withdrawalDatabase_lawful : withdrawalDatabase.Lawful := by
  intro a x s v h
  cases a with
  | update id data =>
    cases x <;> simp [withdrawalDatabase, withdrawalAnswer] at h
    cases hw : s.withdrawal id with
    | none   => simp [hw] at h
    | some w =>
      simp only [hw] at h
      split at h
      · exact decide_eq_true ⟨Option.isSome_iff_exists.mpr ⟨w, hw⟩, ‹_›⟩
      · cases h
  | updateFrom id status data =>
    cases x <;> simp [withdrawalDatabase, withdrawalAnswer] at h
    split at h
    · cases h
    · split at h
      · exact decide_eq_true ⟨by simp_all, ‹_›⟩
      · cases h
  | _ => rfl

-- The surroundings of a poll that has a certain result. Nothing else goes wrong.
def answering (result : PollResult) (delayMs : Nat) : WithdrawalAction → WithdrawalChoice
  | .pollTransaction _ _ _ => .polled result
  | .retryDelay _          => .delay delayMs
  | _                      => .plain

abbrev WithdrawalTx.Returns (p : WithdrawalTx α) (result : PollResult) (delayMs : Nat)
    (Q : α → WithdrawalStore → Prop) (s : WithdrawalStore) : Prop :=
  Prog.Returns withdrawalDatabase.step (answering result delayMs) p Q s

abbrev WithdrawalSession.Returns (p : WithdrawalSession α) (result : PollResult) (delayMs : Nat)
    (Q : α → WithdrawalStore → Prop) (s : WithdrawalStore) : Prop :=
  Prog.Returns withdrawalDatabase.exec (Database.Step.choose (answering result delayMs) .plain) p Q s

section

variable {D : WithdrawalDeps} {result : PollResult} {delayMs : Nat} {s : WithdrawalStore} {i : WithdrawalRequest}
  {w : Withdrawal} {id : String} {data : WithdrawalData} {params : TransitionParams}

-- The id of a transaction is not written by the worker.
theorem unclaimed_of_none (h : data.anchorTxId = none) : s.unclaimed id data = true := by
  refine List.all_eq_true.mpr fun w _ => decide_eq_true ?_
  rw [h]
  tauto

theorem update_returns (hw : s.withdrawal id = some w) (hd : data.anchorTxId = none) :
    WithdrawalSession.Returns (statement i (.update id data)) result delayMs
      (fun _ s' => s'.withdrawal id = some (w.set data s.now)) s := by
  have hid : w.id = id := Table.key_of_row? hw
  have hx : withdrawalDatabase.step (.update id data) .plain s =
      some (.ok (w.set data s.now), withdrawalEffect (.update id data) s) := by
    simp [Database.step, withdrawalDatabase, withdrawalAnswer, hw, unclaimed_of_none hd, Database.apply]
  refine Database.returns_transaction withdrawalDatabase_lawful rfl (.perform hx ?_)
  refine withdrawal_update.trans ?_
  simp [hw, hid]

-- A transition of the worker that is allowed.
theorem transition_returns (hw : s.withdrawal params.withdrawalId = some w) (ho : params.ownerUserId = none)
    (hd : params.data.anchorTxId = none) (hs : params.source = .poll)
    (hc : w.status.canTransition params.target = true) (hne : params.target ≠ w.status) :
    WithdrawalSession.Returns (transition i params) result delayMs
      (fun _ s' => s'.withdrawal params.withdrawalId = some (w.set params.data s.now)) s := by
  have hid : w.id = params.withdrawalId := Table.key_of_row? hw
  have hx : withdrawalDatabase.step (.updateFrom params.withdrawalId w.status params.data) .plain s =
      some (.ok (), withdrawalEffect (.updateFrom params.withdrawalId w.status params.data) s) := by
    simp [Database.step, withdrawalDatabase, withdrawalAnswer, hw, unclaimed_of_none hd, Database.apply]
  refine Database.returns_transaction withdrawalDatabase_lawful rfl <| .bind <| .bind <| .perform rfl ?_
  simp only [hw, ho]
  refine .done ?_
  change Prog.Returns _ _ (if params.target = w.status then _ else
    if ¬w.status.canTransition params.target ∨ params.target = .completed ∧ params.source = .user then _
    else _) _ _
  rw [if_neg hne, if_neg (not_or.mpr ⟨not_not.mpr hc, fun h => by cases hs.symm.trans h.2⟩)]
  refine .bind <| .attempt <| .perform hx <| .bind <| .perform rfl <| .bind <| .perform rfl <| .done ?_
  refine withdrawal_update.trans ?_
  simp [hw, hid]

end

-- What a poll makes of a withdrawal that is being processed. An answer never resets the counter.
structure PollStep (D : WithdrawalDeps) (result : PollResult) (job w : Withdrawal) : Prop where
  dead     : w.deadLettered result = true ↔ result.outcome = .failed ∧ D.maxAttempts ≤ job.retryCount + 1
  failed   : result.outcome = .failed → w.deadLettered result = false → w.retryCount = job.retryCount + 1
  rejected : result.outcome = .rejected → w.retryCount = 0
  answered : result.outcome = .answered → w.retryCount = job.retryCount

section

variable {D : WithdrawalDeps} {result : PollResult} {delayMs : Nat} {s s' : WithdrawalStore}
  {i : WithdrawalRequest} {job w : Withdrawal} {data : WithdrawalData} {now : Time} {id : String}

theorem PollStep.of_answered {status : String} (hr : w.retryCount = job.retryCount)
    (hc : w.errorCategory ≠ some .permanent) : PollStep D (.status status) job w where
  dead     := iff_of_false (fun h => hc (of_decide_eq_true h).2.2) fun h => by cases h.1
  failed   := fun h => by cases h
  rejected := fun h => by cases h
  answered := fun _ => hr

theorem PollStep.of_rejected {message : String} (hr : w.retryCount = 0) :
    PollStep D (.failure message .permanent) job w where
  dead     := by simp [Withdrawal.deadLettered, PollResult.outcome]
  failed   := fun h => by cases h
  rejected := fun _ => hr
  answered := fun h => by cases h

theorem PollStep.of_failed {message : String} {category : JobFailureCategory} (hc : category ≠ .permanent)
    (he : D.maxAttempts ≤ job.retryCount + 1 → w.status = .failed ∧ w.errorCategory = some .permanent)
    (hr : ¬D.maxAttempts ≤ job.retryCount + 1 →
      w.errorCategory = some .transient ∧ w.retryCount = job.retryCount + 1) :
    PollStep D (.failure message category) job w := by
  have ho : (PollResult.failure message category).outcome = .failed := by
    cases category <;> first | rfl | contradiction
  have hd : w.deadLettered (.failure message category) = true ↔ D.maxAttempts ≤ job.retryCount + 1 := by
    refine ⟨fun hd => ?_, fun hle => decide_eq_true ⟨by simp [ho], he hle⟩⟩
    by_contra hle
    cases (hr hle).1.symm.trans (of_decide_eq_true hd).2.2
  exact {
    dead     := by rw [hd, ho, eq_self, true_and]
    failed   := fun _ hn => (hr fun hle => by cases hn.symm.trans (hd.mpr hle)).2
    rejected := fun h => by cases ho.symm.trans h
    answered := fun h => by cases ho.symm.trans h
  }

-- Whatever an anchor reports of a withdrawal that is being processed may be recorded.
theorem canTransition_reported {status : String} (h : mapAnchorStatusToWithdrawalStatus status ≠ .processing) :
    WithdrawalStatus.processing.canTransition (mapAnchorStatusToWithdrawalStatus status) = true := by
  revert h
  unfold mapAnchorStatusToWithdrawalStatus
  split_ifs <;> decide

theorem scheduleRetry_returns {reason : String} (hw : s.withdrawal id = some job) :
    WithdrawalSession.Returns (scheduleRetry D i id (job.retryCount + 1) reason) result delayMs
      (fun _ s' => ∃ w, s'.withdrawal id = some w ∧
        (D.maxAttempts ≤ job.retryCount + 1 → w.status = .failed ∧ w.errorCategory = some .permanent) ∧
        (¬D.maxAttempts ≤ job.retryCount + 1 →
          w.errorCategory = some .transient ∧ w.retryCount = job.retryCount + 1)) s := by
  refine .bind <| Database.returns_read rfl <| .bind <| Database.returns_read rfl <| .bind <|
    (update_returns hw rfl).mono fun _ s₁ hw₁ => ?_
  split
  case isTrue he =>
    refine .bind <| (update_returns hw₁ rfl).mono fun _ s₂ hw₂ => .done ⟨_, hw₂, fun _ => ⟨rfl, rfl⟩, ?_⟩
    exact fun hle => (hle he).elim
  case isFalse he =>
    refine .done ⟨_, hw₁, fun hle => (he hle).elim, fun _ => ⟨?_, rfl⟩⟩
    simp [Withdrawal.set, he]

-- Any poll that is not disturbed comes to an end.
theorem reconcileSingleWithdrawal_returns {transferServer token ext : String}
    (ht : job.anchorToken.bind present = some token) (hx : job.anchorTxId.bind present = some ext)
    (hw : s.withdrawal job.id = some job) (hp : job.status = .processing)
    (hc : job.errorCategory ≠ some .permanent) :
    WithdrawalSession.Returns (reconcileSingleWithdrawal D i transferServer job) result delayMs
      (fun _ s' => ∃ w, s'.withdrawal job.id = some w ∧ PollStep D result job w) s := by
  simp only [reconcileSingleWithdrawal, ht, hx]
  refine .bind <| Database.returns_read rfl ?_
  have retried {message : String} {category : JobFailureCategory} (h : category ≠ .permanent) :
      WithdrawalSession.Returns (scheduleRetry D i job.id (job.retryCount + 1) (D.safeFailureMessage message))
        result delayMs
        (fun _ s' => ∃ w, s'.withdrawal job.id = some w ∧ PollStep D (.failure message category) job w) s :=
    (scheduleRetry_returns hw).mono fun _ _ ⟨w, hw', he, hr⟩ => ⟨w, hw', .of_failed h he hr⟩
  cases result with
  | status status =>
    simp only [reconcilePolled]
    split
    case isFalse => exact .done ⟨job, hw, .of_answered rfl hc⟩
    case isTrue hne =>
      have htarget : (WithdrawalStatus.known (mapAnchorStatusToWithdrawalStatus status).name).getD .processing =
          mapAnchorStatusToWithdrawalStatus status := congrArg (·.getD .processing) (known_name _)
      refine .bind <| (transition_returns hw rfl rfl rfl ?_ ?_).mono fun _ s' hw' =>
        .done ⟨_, hw', .of_answered rfl hc⟩
      · rw [hp]
        exact (congrArg _ htarget).trans (canTransition_reported (hp ▸ hne))
      · exact fun he => hne (htarget.symm.trans he)
  | failure message category =>
    cases category with
    | permanent =>
      have htarget : (WithdrawalStatus.known WithdrawalStatus.failed.name).getD .processing = .failed :=
        congrArg (·.getD .processing) (known_name _)
      refine .bind <| (transition_returns hw rfl rfl rfl ?_ ?_).mono fun _ s' hw' =>
        .done ⟨_, hw', .of_rejected rfl⟩
      · rw [hp]
        exact congrArg _ htarget
      · exact fun he => by cases (htarget.symm.trans he).trans hp
    | transient | indeterminate => exact retried (by simp)

end

-- When a withdrawal is polled, what comes of it, and the delay that is drawn for the next attempt.
structure Poll where
  now     : Time
  result  : PollResult
  delayMs : Nat := 0

-- A withdrawal is polled by a worker that has found it to be due, after some time has passed.
def pollWithdrawal (D : WithdrawalDeps) (transferServer id : String) (s : WithdrawalStore) (poll : Poll) :
    Option WithdrawalStore := do
  let s ← withdrawalEnv poll.now s
  let job ← s.withdrawal id
  if WithdrawalStore.pollable D.maxAttempts s.now job ∧ job.anchorToken.bind present ≠ none ∧
      job.anchorTxId.bind present ≠ none then
    let (_, s') ← Prog.alone withdrawalDatabase.exec
      (Database.Step.choose (answering poll.result poll.delayMs) .plain)
      (reconcileSingleWithdrawal D .poll transferServer job).swallow s
    return s'
  else none

def withdrawalPolls (D : WithdrawalDeps) (transferServer id : String) :
    Counter WithdrawalStore Withdrawal Poll where
  row       := (·.withdrawal id)
  attempt   := pollWithdrawal D transferServer id
  count     := (·.retryCount)
  outcome   := (·.result.outcome)
  exhausted := fun poll w => w.deadLettered poll.result

section

variable {D : WithdrawalDeps} {transferServer id : String} {s s' : WithdrawalStore} {poll : Poll}
  {before : Withdrawal}

theorem pollWithdrawal_step (hb : s.withdrawal id = some before)
    (h : pollWithdrawal D transferServer id s poll = some s') : before.status = .processing ∧
      ∃ after, s'.withdrawal id = some after ∧ PollStep D poll.result before after := by
  have ⟨s₁, hs, h⟩ := Option.bind_eq_some_iff.mp h
  have hb₁ : s₁.withdrawal id = some before := by
    rw [withdrawalEnv_eq hs]
    exact hb
  have ⟨job, hjob, h⟩ := Option.bind_eq_some_iff.mp h
  cases hb₁.symm.trans hjob
  split at h
  case isFalse => cases h
  case isTrue hdue =>
    have ⟨hr, htoken, hext⟩ := hdue
    have ⟨hp, _, _, _, hcat, _⟩ := of_decide_eq_true hr
    have ⟨token, htoken⟩ := Option.ne_none_iff_exists'.mp htoken
    have ⟨ext, hext⟩ := Option.ne_none_iff_exists'.mp hext
    have hid : before.id = id := Table.key_of_row? hjob
    have hreturns : WithdrawalSession.Returns (reconcileSingleWithdrawal D .poll transferServer before) poll.result
        poll.delayMs _ s₁ := reconcileSingleWithdrawal_returns htoken hext (hid.symm ▸ hb₁) hp hcat
    have ⟨_, s₂, hr, w, hw, hstep⟩ := hreturns.swallow (Q := fun _ (s' : WithdrawalStore) =>
      ∃ w, s'.withdrawal before.id = some w ∧ PollStep D poll.result before w)
    rw [hr] at h
    cases h
    exact ⟨hp, w, hid ▸ hw, hstep⟩

theorem withdrawalPolls_law :
    (withdrawalPolls D transferServer id).Law D.maxAttempts (·.status.isTerminal) where
  open_  := fun hb h => by rw [(pollWithdrawal_step hb h).1]; rfl
  ended  := fun h => by rw [(of_decide_eq_true h).2.1]; rfl
  counts := fun {s s' r} hb h ha => by
    have ⟨_, _, ha', hstep⟩ := pollWithdrawal_step hb h
    cases ha'.symm.trans ha
    exact ⟨hstep.dead, hstep.failed, hstep.rejected⟩

-- The attempts are consecutive if and only if there is no answer after a failure.
theorem withdrawalPolls_consecutive {row : Withdrawal} {l : List (Record Withdrawal Poll)}
    (h : (withdrawalPolls D transferServer id).Run s l s') (hs : s.withdrawal id = some row)
    (hn : row.retryCount < D.maxAttempts) :
    Consecutive D.maxAttempts row.retryCount (l.map (withdrawalPolls D transferServer id).counted) ↔
      ∀ r ∈ l, ∀ status, r.attempt.result = .status status → r.before.retryCount = 0 := by
  refine (h.consecutive_iff withdrawalPolls_law hs hn).trans ?_
  have hstep (r) (hr : r ∈ l) : PollStep D r.attempt.result r.before r.after :=
    h.forall (P := fun r => PollStep D r.attempt.result r.before r.after) (fun s s' r hb ha hrow => by
      have ⟨_, _, ha', hstep⟩ := pollWithdrawal_step hb ha
      cases ha'.symm.trans hrow
      exact hstep) r hr
  refine forall₂_congr fun r hr => ⟨fun h status hst => ?_, fun h ho => ?_⟩
  · have ho : r.attempt.result.outcome = .answered := congrArg (·.outcome) hst
    exact ((hstep r hr).answered ho).symm.trans (h ho)
  · have ho : r.attempt.result.outcome = .answered := ho
    cases hst : r.attempt.result with
    | status status => exact ((hstep r hr).answered ho).trans (h status hst)
    | failure message category =>
      rw [hst] at ho
      cases category <;> cases ho

end

end Mergepay.Withdrawals
