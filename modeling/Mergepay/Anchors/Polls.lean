import Mergepay.Anchors.Alone
import Mergepay.Data.Budget

namespace Mergepay.Anchors

open Concurrency Budget Money

def Sep24Fetch.outcome : Sep24Fetch → Outcome
  | transaction _        => .answered
  | failure _ .permanent => .rejected
  | failure _ _          => .failed

-- A session that has failed for good, although the anchor has not said so.
def AnchorSession.deadLettered (session : AnchorSession) (fetched : Sep24Fetch) : Bool :=
  fetched.outcome ≠ .rejected ∧ session.status = .error ∧ session.errorCategory = some .permanent

-- Whether a status that is reported by a poll leads to an update of the session.
def AnchorSession.takes (session : AnchorSession) (rawStatus : String) : Bool :=
  match resolveSep24Status rawStatus with
  | none        => true
  | some status => status = session.status.name ∨
    (Sep24TransactionStatus.known status).any session.status.canTransition

-- What a poll makes of a session that is in progress.
structure PollStep (D : AnchorDeps) (fetched : Sep24Fetch) (job row : AnchorSession) : Prop where
  dead     : row.deadLettered fetched = true ↔ fetched.outcome = .failed ∧ D.maxAttempts ≤ job.retryCount + 1
  failed   : fetched.outcome = .failed → row.deadLettered fetched = false → row.retryCount = job.retryCount + 1
  rejected : fetched.outcome = .rejected → row.retryCount = 0
  answered : ∀ tx, fetched = .transaction tx →
    (row.retryCount = 0 ↔ job.retryCount = 0 ∨ job.takes tx.status = true)
  ended    : row.deadLettered fetched = true → row.status.isTerminal = true

section

variable {D : AnchorDeps} {job row : AnchorSession} {now delayMs : Time} {reason text worker : String}

theorem canTransition_error {status : Sep24TransactionStatus} (h : status.isTerminal = false) :
    Sep24TransactionStatus.error ≠ status ∧ status.canTransition .error = true := by
  revert h
  cases status <;> decide

-- A failure that comes from the poll itself is not refused.
theorem sessionFailure_result (hs : row.status = job.status) (ht : job.status.isTerminal = false) :
    (sessionFailure job now reason text).result row =
      row.move .error ((sessionFailure job now reason text).extraData.getD {}) := by
  have ⟨hne, hc⟩ := canTransition_error ht
  have hk : Sep24TransactionStatus.known (sessionFailure job now reason text).nextStatus = some .error :=
    Sep24TransactionStatus.known_name .error
  simp only [TransitionParams.result, hk]
  rw [if_neg (hs ▸ hne), if_neg (by simp [hs, hc]), if_neg (by simp [sessionFailure, hs])]

theorem retried_result {row' : AnchorSession} (hs : row.status = job.status) (ht : job.status.isTerminal = false)
    (h : D.retried job now delayMs reason row = row') :
    (D.maxAttempts ≤ job.retryCount + 1 → row'.status = .error ∧ row'.errorCategory = some .permanent) ∧
    (¬D.maxAttempts ≤ job.retryCount + 1 → row'.status = job.status ∧ row'.retryCount = job.retryCount + 1) := by
  subst h
  refine ⟨fun he => ?_, fun he => ?_⟩
  · simp only [AnchorDeps.retried, ge_iff_le, if_pos he]
    rw [sessionFailure_result (show (row.set _).status = job.status from hs) ht]
    exact ⟨rfl, rfl⟩
  · simp only [AnchorDeps.retried, ge_iff_le, if_neg he]
    exact ⟨hs, rfl⟩

-- What is reported either leads to an update, or to nothing.
theorem report_result {report : PollReport} (hs : row.status = job.status) (ht : job.status.isTerminal = false) :
    report.result job now row = row ∧ ¬(¬report.recognized ∨ report.status = job.status.name ∨
      (Sep24TransactionStatus.known report.status).any job.status.canTransition) ∨
    (report.result job now row).retryCount = 0 ∧ (report.result job now row).errorCategory = none ∧
      (¬report.recognized ∨ report.status = job.status.name ∨
        (Sep24TransactionStatus.known report.status).any job.status.canTransition) := by
  unfold PollReport.result
  split
  case isTrue h => exact .inr ⟨rfl, rfl, h.imp_right .inl⟩
  case isFalse h =>
    have ⟨hr, hn⟩ := not_or.mp h
    rw [if_neg (by simp [ht])]
    have hx : ¬(some job.status.name).any (· ≠ job.status.name) = true := by simp
    cases hk : Sep24TransactionStatus.known report.status with
    | none =>
      refine .inl ⟨?_, by simp [hn, not_not.mp hr]⟩
      simp only [TransitionParams.result, AnchorSession.advance, hk]
    | some target =>
      have hne : target ≠ job.status := fun he => hn <| by rw [← Sep24TransactionStatus.name_of_known hk, he]
      simp only [TransitionParams.result, AnchorSession.advance, hk, hs, if_neg hne, if_neg hx]
      split
      case isTrue hc  => exact .inl ⟨rfl, by simpa [hn, not_not.mp hr] using hc⟩
      case isFalse hc => exact .inr ⟨rfl, rfl, .inr (.inr (not_not.mp hc))⟩

theorem takes_iff {tx : Sep24AnchorTransaction} {report : PollReport}
    (h : D.pollResult (.transaction tx) = .report report) : job.takes tx.status = true ↔
      ¬report.recognized ∨ report.status = job.status.name ∨
        (Sep24TransactionStatus.known report.status).any job.status.canTransition := by
  cases h
  unfold AnchorSession.takes
  cases resolveSep24Status tx.status <;> simp

theorem terminal_of_deadLettered {fetched : Sep24Fetch} (h : row.deadLettered fetched = true) :
    row.status.isTerminal = true := by
  rw [(of_decide_eq_true h).2.1]
  rfl

theorem PollStep.of_answered {tx : Sep24AnchorTransaction} (hc : row.errorCategory ≠ some .permanent)
    (hr : row.retryCount = 0 ↔ job.retryCount = 0 ∨ job.takes tx.status = true) :
    PollStep D (.transaction tx) job row where
  dead     := iff_of_false (fun h => hc (of_decide_eq_true h).2.2) fun h => by cases h.1
  failed   := fun h => by cases h
  rejected := fun h => by cases h
  ended    := terminal_of_deadLettered
  answered := fun tx' he => by
    cases he
    exact hr

theorem PollStep.of_rejected {message : String} (hr : row.retryCount = 0) :
    PollStep D (.failure message .permanent) job row where
  dead     := by simp [AnchorSession.deadLettered, Sep24Fetch.outcome]
  failed   := fun h => by cases h
  rejected := fun _ => hr
  ended    := terminal_of_deadLettered
  answered := fun tx h => by cases h

theorem PollStep.of_failed {message : String} {category : JobFailureCategory} (hc : category ≠ .permanent)
    (he : D.maxAttempts ≤ job.retryCount + 1 → row.status = .error ∧ row.errorCategory = some .permanent)
    (hr : ¬D.maxAttempts ≤ job.retryCount + 1 →
      row.status.isTerminal = false ∧ row.retryCount = job.retryCount + 1) :
    PollStep D (.failure message category) job row := by
  have ho : (Sep24Fetch.failure message category).outcome = .failed := by cases category <;> first | rfl | contradiction
  have hd : row.deadLettered (.failure message category) = true ↔ D.maxAttempts ≤ job.retryCount + 1 := by
    refine ⟨fun hd => ?_, fun hle => decide_eq_true ⟨by simp [ho], he hle⟩⟩
    by_contra hle
    cases (hr hle).1.symm.trans (terminal_of_deadLettered hd)
  exact {
    dead     := by rw [hd, ho, eq_self, true_and]
    failed   := fun _ hn => (hr fun hle => by cases hn.symm.trans (hd.mpr hle)).2
    rejected := fun h => by cases ho.symm.trans h
    answered := fun tx h => by cases h
    ended    := terminal_of_deadLettered
  }

theorem poll_step {fetched : Sep24Fetch} (hs : row.status = job.status) (hn : row.retryCount = job.retryCount)
    (hc : row.errorCategory ≠ some .permanent) (ht : job.status.isTerminal = false) :
    PollStep D fetched job (D.poll job now delayMs fetched row) := by
  cases fetched with
  | transaction tx =>
    cases hp : D.pollResult (.transaction tx) with
    | failure => cases hp
    | report report =>
      simp only [AnchorDeps.poll, hp]
      rcases report_result hs ht with ⟨hr, hk⟩ | ⟨hr, he, hk⟩
      case inl =>
        rw [hr]
        refine .of_answered hc ?_
        rw [hn, takes_iff hp]
        exact (or_iff_left hk).symm
      case inr => exact .of_answered (by simp [he]) (iff_of_true hr (.inr ((takes_iff hp).mpr hk)))
  | failure message category =>
    have retried (h : category ≠ .permanent) : PollStep D (.failure message category) job
        (D.retried job now delayMs (D.safeFailureMessage 300 message) row) :=
      .of_failed h (retried_result hs ht rfl).1 fun hle => by
        obtain ⟨hst, hr⟩ := (retried_result hs ht rfl).2 hle
        exact ⟨hst ▸ ht, hr⟩
    cases category with
    | permanent                 => exact .of_rejected (congrArg (·.retryCount) (sessionFailure_result hs ht))
    | transient | indeterminate => exact retried (by simp)

-- Neither the claim nor the release of a session matters.
theorem cycle_step {fetched : Sep24Fetch} (hc : job.errorCategory ≠ some .permanent)
    (ht : job.status.isTerminal = false) : PollStep D fetched job (D.cycle worker job now delayMs fetched job) := by
  have h : PollStep D fetched job (D.poll job now delayMs fetched (job.claim worker now (now + D.leaseTimeoutMs))) :=
    poll_step rfl rfl hc ht
  unfold AnchorDeps.cycle
  simp only
  split
  · exact ⟨h.dead, h.failed, h.rejected, h.answered, h.ended⟩
  · exact h

end

-- When a session is polled, what the anchor answers, and the delay that is drawn for the next attempt.
structure Poll where
  now     : Time
  fetched : Sep24Fetch
  delayMs : Nat := 0

-- A session is polled by a worker that has found it to be due, after some time has passed.
def pollSession (D : AnchorDeps) (worker transferServer id : String) (s : AnchorStore) (poll : Poll) :
    Option AnchorStore := do
  let s ← anchorEnv poll.now s
  let job ← s.session id
  if job.reconcilable s.now ∧ job.anchorToken.bind present ≠ none ∧
      job.externalTransactionId.bind present ≠ none then
    let (_, s') ← Prog.alone anchorDatabase.exec
      (Database.Step.choose (answering poll.fetched poll.delayMs) .plain)
      (reconcileClaimed D (.poll worker) worker transferServer job) s
    return s'
  else none

def sessionPolls (D : AnchorDeps) (worker transferServer id : String) :
    Counter AnchorStore AnchorSession Poll where
  row       := (·.session id)
  attempt   := pollSession D worker transferServer id
  count     := (·.retryCount)
  outcome   := (·.fetched.outcome)
  exhausted := fun poll session => session.deadLettered poll.fetched

section

variable {D : AnchorDeps} {worker transferServer id : String} {s s' : AnchorStore} {poll : Poll}
  {before after : AnchorSession}

theorem pollSession_step (hb : s.session id = some before)
    (h : pollSession D worker transferServer id s poll = some s') : before.status.isTerminal = false ∧
      ∃ after, s'.session id = some after ∧ PollStep D poll.fetched before after := by
  have ⟨s₁, hs, h⟩ := Option.bind_eq_some_iff.mp h
  have hb₁ : s₁.session id = some before := by
    rw [anchorEnv_eq hs]
    exact hb
  have ⟨job, hjob, h⟩ := Option.bind_eq_some_iff.mp h
  cases hb₁.symm.trans hjob
  split at h
  case isFalse => cases h
  case isTrue hdue =>
    have ⟨hr, htoken, hext⟩ := hdue
    have ⟨hterm, _, hcat, he⟩ := of_decide_eq_true hr
    have ⟨token, htoken⟩ := Option.ne_none_iff_exists'.mp htoken
    have ⟨ext, hext⟩ := Option.ne_none_iff_exists'.mp hext
    have hid : before.id = id := Table.key_of_row? hjob
    have ⟨_, s₂, hp, hw⟩ : AnchorProg.Returns (reconcileClaimed D (.poll worker) worker transferServer before)
        poll.fetched poll.delayMs _ s₁ := reconcileClaimed_returns htoken hext (hid.symm ▸ hb₁) he
    rw [hp] at h
    cases h
    have hown := hw.own
    rw [hid, hb₁, Option.map_some] at hown
    have hterm : before.status.isTerminal = false := Bool.eq_false_iff.mpr hterm
    exact ⟨hterm, _, hown, cycle_step hcat hterm⟩

theorem sessionPolls_law :
    (sessionPolls D worker transferServer id).Law D.maxAttempts (·.status.isTerminal) where
  open_  := fun hb h => (pollSession_step hb h).1
  ended  := terminal_of_deadLettered
  counts := fun {s s' r} hb h ha => by
    have ⟨_, _, ha', hstep⟩ := pollSession_step hb h
    cases ha'.symm.trans ha
    exact ⟨hstep.dead, hstep.failed, hstep.rejected⟩

-- The attempts are consecutive if and only if every answer after a failure leads to an update.
theorem sessionPolls_consecutive {row : AnchorSession} {l : List (Record AnchorSession Poll)}
    (h : (sessionPolls D worker transferServer id).Run s l s') (hs : s.session id = some row)
    (hn : row.retryCount < D.maxAttempts) :
    Consecutive D.maxAttempts row.retryCount (l.map (sessionPolls D worker transferServer id).counted) ↔
      ∀ r ∈ l, ∀ tx, r.attempt.fetched = .transaction tx →
        r.before.retryCount = 0 ∨ r.before.takes tx.status = true := by
  refine (h.consecutive_iff sessionPolls_law hs hn).trans ?_
  have hstep (r) (hr : r ∈ l) : PollStep D r.attempt.fetched r.before r.after :=
    h.forall (P := fun r => PollStep D r.attempt.fetched r.before r.after) (fun s s' r hb ha hrow => by
      have ⟨_, _, ha', hstep⟩ := pollSession_step hb ha
      cases ha'.symm.trans hrow
      exact hstep) r hr
  refine forall₂_congr fun r hr => ⟨fun h tx htx => ?_, fun h ho => ?_⟩
  · exact ((hstep r hr).answered tx htx).mp (h (congrArg (·.outcome) htx))
  · have ho : r.attempt.fetched.outcome = .answered := ho
    cases htx : r.attempt.fetched with
    | transaction tx => exact ((hstep r hr).answered tx htx).mpr (h tx htx)
    | failure message category =>
      rw [htx] at ho
      cases category <;> cases ho

end

end Mergepay.Anchors
