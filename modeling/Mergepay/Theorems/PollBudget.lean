import Mergepay.Anchors.Polls
import Mergepay.Withdrawals.Polls

namespace Mergepay

open Budget

-- The polls of a session, or of a withdrawal, that has not used up its attempts yet. Only failures in a row
-- exhaust the budget of a session if and only if, whenever the anchor answers after a failure, the answer leads
-- to an update. They exhaust the budget of a withdrawal if and only if the anchor never answers after a failure.
theorem polls_consecutive (D : Anchors.AnchorDeps) (E : Withdrawals.WithdrawalDeps) :
    (∀ (worker transferServer id : String) (s s' : Anchors.AnchorStore)
      (row : Anchors.AnchorSession) (l : List (Record Anchors.AnchorSession Anchors.Poll)),
      (Anchors.sessionPolls D worker transferServer id).Run s l s' → s.session id = some row →
      row.retryCount < D.maxAttempts →
      (Consecutive D.maxAttempts row.retryCount
          (l.map (Anchors.sessionPolls D worker transferServer id).counted) ↔
        ∀ r ∈ l, ∀ tx, r.attempt.fetched = .transaction tx →
          r.before.retryCount = 0 ∨ r.before.takes tx.status = true)) ∧
    ∀ (transferServer id : String) (s s' : Withdrawals.WithdrawalStore)
      (row : Withdrawals.Withdrawal) (l : List (Record Withdrawals.Withdrawal Withdrawals.Poll)),
      (Withdrawals.withdrawalPolls E transferServer id).Run s l s' → s.withdrawal id = some row →
      row.retryCount < E.maxAttempts →
      (Consecutive E.maxAttempts row.retryCount
          (l.map (Withdrawals.withdrawalPolls E transferServer id).counted) ↔
        ∀ r ∈ l, ∀ status, r.attempt.result = .status status → r.before.retryCount = 0) :=
  ⟨fun _ _ _ _ _ _ _ h hs hn => Anchors.sessionPolls_consecutive h hs hn,
    fun _ _ _ _ _ _ h hs hn => Withdrawals.withdrawalPolls_consecutive h hs hn⟩

-- Two attempts are made.

def sessionPolling : Counter Anchors.AnchorStore Anchors.AnchorSession Anchors.Poll :=
  Anchors.sessionPolls { Anchors.anchorConfig with maxAttempts := 2 } "worker" "server" "session"

def withdrawalPolling : Counter Withdrawals.WithdrawalStore Withdrawals.Withdrawal Withdrawals.Poll :=
  Withdrawals.withdrawalPolls { Withdrawals.withdrawalConfig with maxAttempts := 2 } "server" "withdrawal"

def processedWithdrawals : Withdrawals.WithdrawalStore where
  withdrawals := [{
    id          := "withdrawal"
    userId      := "alice"
    assetCode   := "USDC"
    anchorTxId  := some "tx"
    anchorToken := some "jwt"
    status      := .processing
  }]

-- A failure comes before and after an answer.

def disturbed (status : String) : List Anchors.Poll := [
    ⟨0, .failure "unavailable" .transient, 1⟩,
    ⟨10, .transaction { status }, 1⟩,
    ⟨20, .failure "unavailable" .transient, 1⟩
  ]

def disturbedWithdrawal (status : String) : List Withdrawals.Poll := [
    ⟨0, .failure "unavailable" .transient, 1⟩,
    ⟨10, .status status, 1⟩,
    ⟨20, .failure "unavailable" .transient, 1⟩
  ]

-- Only failures in a row are left after the answer.
def answeredFirst : List Withdrawals.Poll := [
    ⟨0, .status "pending_anchor", 1⟩,
    ⟨10, .failure "unavailable" .transient, 1⟩,
    ⟨20, .failure "unavailable" .transient, 1⟩
  ]

def inARow : List Attempt :=
  [⟨.answered, 0, 0, false⟩, ⟨.failed, 0, 1, false⟩, ⟨.failed, 1, 0, true⟩]

-- The count starts again.
def restarted : List Attempt :=
  [⟨.failed, 0, 1, false⟩, ⟨.answered, 1, 0, false⟩, ⟨.failed, 0, 1, false⟩]

-- The count goes on, until no attempt is left.
def continued : List Attempt :=
  [⟨.failed, 0, 1, false⟩, ⟨.answered, 1, 1, false⟩, ⟨.failed, 1, 0, true⟩]

def answersTaken (l : List (Record Anchors.AnchorSession Anchors.Poll)) : Bool :=
  l.all fun r => match r.attempt.fetched with
    | .transaction tx => r.before.retryCount = 0 ∨ r.before.takes tx.status
    | .failure _ _    => true

theorem takes_of_answersTaken {l : List (Record Anchors.AnchorSession Anchors.Poll)} (h : answersTaken l = true) :
    ∀ r ∈ l, ∀ tx, r.attempt.fetched = .transaction tx →
      r.before.retryCount = 0 ∨ r.before.takes tx.status = true := by
  intro r hr tx htx
  have h := List.all_eq_true.mp h r hr
  simp only [htx] at h
  exact of_decide_eq_true h

def answeredAtZero (l : List (Record Withdrawals.Withdrawal Withdrawals.Poll)) : Bool :=
  l.all fun r => match r.attempt.result with
    | .status _    => r.before.retryCount = 0
    | .failure _ _ => true

theorem zero_of_answeredAtZero {l : List (Record Withdrawals.Withdrawal Withdrawals.Poll)}
    (h : answeredAtZero l = true) : ∀ r ∈ l, ∀ status, r.attempt.result = .status status → r.before.retryCount = 0 := by
  intro r hr status hs
  have h := List.all_eq_true.mp h r hr
  simp only [hs] at h
  exact of_decide_eq_true h

theorem polls_consecutive_sample :
    (∃ l s', sessionPolling.Run Anchors.sampleSessions l s' ∧ l.map sessionPolling.counted = restarted ∧
      Consecutive 2 0 (l.map sessionPolling.counted)) ∧
    ∃ l s', withdrawalPolling.Run processedWithdrawals l s' ∧ l.map withdrawalPolling.counted = inARow ∧
      Consecutive 2 0 (l.map withdrawalPolling.counted) := by
  constructor
  · have ⟨l, s', h, hl⟩ := Counter.exists_run_of_play (C := sessionPolling) (s := Anchors.sampleSessions)
      (p := fun l => l.map sessionPolling.counted = restarted ∧ answersTaken l)
      (disturbed "pending_anchor") (by decide +kernel)
    have ⟨hc, ht⟩ := of_decide_eq_true hl
    have hi := (polls_consecutive _ Withdrawals.withdrawalConfig).1 _ _ _ _ _ _ l h rfl (by decide)
    exact ⟨l, s', h, hc, hi.mpr (takes_of_answersTaken ht)⟩
  · have ⟨l, s', h, hl⟩ := Counter.exists_run_of_play (C := withdrawalPolling) (s := processedWithdrawals)
      (p := fun l => l.map withdrawalPolling.counted = inARow ∧ answeredAtZero l) answeredFirst (by decide +kernel)
    have ⟨hc, ht⟩ := of_decide_eq_true hl
    exact ⟨l, s', h, hc, ((polls_consecutive Anchors.anchorConfig _).2 _ _ _ _ _ l h rfl (by decide)).mpr
      (zero_of_answeredAtZero ht)⟩

theorem not_consecutive_continued : ¬Consecutive 2 0 continued := by
  intro h
  have ⟨_, ho⟩ := (h [_, _] _ [] rfl).1.mp rfl
  cases ho

-- A session is given up after two failures with an answer in between, which the session has refused. So is a
-- withdrawal, whatever the answer.
theorem polls_not_consecutive :
    (∃ l s', sessionPolling.Run Anchors.sampleSessions l s' ∧ ¬Consecutive 2 0 (l.map sessionPolling.counted)) ∧
    ∃ l s', withdrawalPolling.Run processedWithdrawals l s' ∧
      ¬Consecutive 2 0 (l.map withdrawalPolling.counted) := by
  constructor
  · have ⟨l, s', h, hl⟩ := Counter.exists_run_of_play (C := sessionPolling) (s := Anchors.sampleSessions)
      (p := fun l => l.map sessionPolling.counted = continued) (disturbed "incomplete") (by decide +kernel)
    exact ⟨l, s', h, of_decide_eq_true hl ▸ not_consecutive_continued⟩
  · have ⟨l, s', h, hl⟩ := Counter.exists_run_of_play (C := withdrawalPolling) (s := processedWithdrawals)
      (p := fun l => l.map withdrawalPolling.counted = continued)
      (disturbedWithdrawal "pending_anchor") (by decide +kernel)
    exact ⟨l, s', h, of_decide_eq_true hl ▸ not_consecutive_continued⟩

end Mergepay
