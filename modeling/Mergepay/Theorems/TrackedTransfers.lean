import Mergepay.Anchors.Runs
import Mergepay.Withdrawals.Runs

namespace Mergepay.Anchors

open Concurrency Withdrawals

-- A transaction that completes a session commits only while the session is incomplete.
def CompletedOnce : SessionAct → AnchorStore → Prop
  | .commit (.complete _ _ id _) _, s => s.status id = some .incomplete
  | _, _                              => True

instance (a : SessionAct) (s : AnchorStore) : Decidable (CompletedOnce a s) := by
  unfold CompletedOnce
  split <;> infer_instance

-- The transaction that has been opened for the client is the one that the session tracks.
def Tracked : SessionRequest → SessionResponse → AnchorStore → Prop
  | .complete _ _ id _, .completed completion, s =>
    s.Has id (·.externalTransactionId = some completion.interactive.id)
  | _, _, _ => True

section

variable {D : AnchorDeps} {s : AnchorStore} {id externalId : String}

theorem persists_externalId : Persists CompletedOnce id (·.externalTransactionId = some externalId) := by
  intro i log s r r' hs hc hr hm hx
  rcases hm.externalId with he | ⟨⟨u, p, xdr, rfl⟩, _⟩
  case inl => exact he.trans hx
  case inr =>
    -- A session that is still incomplete does not track anything.
    have hrow : s.session r.id = some r := (Table.key_of_row? hr : r.id = id) ▸ hr
    have hst : s.status r.id = some .incomplete := hc
    rw [AnchorStore.status, hrow, Option.map_some] at hst
    exact (hs.tracked r.id r hrow (by simp [hx]) (Option.some.inj hst)).elim

theorem completion_tracked {userId publicKey xdr token : String} {interactive : Interactive}
    (h₀ : s.Consistent) (hs : s.Has id fun _ => True) : (sessionProtocol CompletedOnce).Safe
      (transition (.complete userId publicKey id xdr) (completionTransition userId id token interactive))
      (fun _ s' => s'.Has id (·.externalTransactionId = some interactive.id)) (fun _ _ => True) s := by
  refine transition_safe completionTransition_tracks fun log v s₁ s₂ ha ht hi₁ hc had he₂ => ?_
  have hinc : s₁.status id = some .incomplete := hc.1
  -- The session has been incomplete all the time, since it does not become so again.
  have hread {s' : AnchorStore} (hb : Database.Between (sessionProtocol CompletedOnce) s s₁ s')
      {r : AnchorSession} (hr : s'.session id = some r) : r.status = .incomplete := by
    by_contra hn
    obtain ⟨r₁, hr₁, hst⟩ := persists_started.evolves hb.after hb.inv ⟨r, hr, hn⟩
    rw [AnchorStore.status, hr₁, Option.map_some] at hinc
    exact hst (Option.some.inj hinc)
  obtain ⟨session, rest, rfl, hr⟩ := applyAnchorSessionTransition_done ha
  obtain ⟨s₀, hb, hrow⟩ := read_session ht
  have hst := hread hb hrow
  have hk : Sep24TransactionStatus.known (completionTransition userId id token interactive).nextStatus =
      some .pendingUserTransferStart :=
    Sep24TransactionStatus.known_name .pendingUserTransferStart
  cases hr with
  | ignored hn =>
    obtain ⟨_, hn⟩ := hn _ hk
    rcases hn with hn | hn
    case inl =>
      rw [hst] at hn
      exact (hn (by decide)).elim
    case inr => cases hn
  | repeated hk' => cases (hst ▸ Option.some.inj (hk.symm.trans hk') : _ = Sep24TransactionStatus.incomplete)
  | updated hk'  => cases (hst ▸ Option.some.inj (hk.symm.trans hk') : _ = Sep24TransactionStatus.incomplete)
  | superseded =>
    obtain ⟨x, s₃, hb, _, _, hx⟩ := ht [_] _ [] rfl
    obtain ⟨r, hr, _⟩ := persists_trivial.evolves hb.before h₀ hs
    exact (not_status_of_noneMatched hr hx ((hread hb hr).trans hst.symm)).elim
  | changed hk' hc' =>
    obtain ⟨r, _, _, hv⟩ := view_changed (.changed hk' hc') rfl hk had
    exact persists_externalId.evolves he₂ ((view_moves hc.2 had).2 hi₁) ⟨_, hv, rfl⟩

theorem sessionRequest_tracked (i : SessionRequest) (s : AnchorStore) (hi : s.Consistent) :
    (sessionProtocol CompletedOnce).Safe (sessionRequest D i) (Tracked i) (fun _ _ => True) s := by
  cases i with
  | complete => exact .map (complete_safe hi fun _ _ _ => completion_tracked)
  | callback => exact .map ((Orderly.fine (orderly _).applySep24Callback_within s).mono (fun _ _ _ _ h => h) fun _ _ _ _ h => h)
  | start | poll | recover =>
    exact Orderly.fine ((orderly _).sessionRequest_within (by rintro id ⟨_, _, _, h⟩; cases h)) s

end

-- A session that has just been created.
def newSession : AnchorStore := {
  sessions := [{ id := "session", userId := "alice", kind := "deposit", assetCode := "USDC" }]
}

-- A completion that the anchor answers with a certain transaction.
def completing (n : Nat) (externalId : String) : List (Label AnchorChoice Time SessionRequest) :=
  .spawn (.complete "alice" "GALICE" "session" "xdr") :: Label.acts n [
    .plain, .toml ⟨"https://anchor/sep24", "https://anchor/auth"⟩, .text "jwt",
    .started ⟨externalId, "https://anchor/tx"⟩
  ]

-- The client has been told about a certain transaction.
def returned (externalId : String) (c : ServerConfig) : Bool :=
  c.shared.reports.any fun
    | (.complete "alice" "GALICE" "session" "xdr", .completed completion) => completion.interactive.id = externalId
    | _ => false

def tracking (externalId : String) (c : ServerConfig) : Bool :=
  (c.shared.state.session "session").any (·.externalTransactionId = some externalId)

theorem reported_of_returned {c : ServerConfig} {externalId : String} (h : returned externalId c = true) :
    ∃ completion, (.complete "alice" "GALICE" "session" "xdr", .completed completion) ∈ c.shared.reports ∧
      completion.interactive.id = externalId := by
  have ⟨⟨i, v⟩, hm, h⟩ := List.any_eq_true.mp h
  split at h
  case h_2 => cases h
  case h_1 completion he =>
    cases he
    exact ⟨completion, hm, of_decide_eq_true h⟩

theorem newSession_consistent : newSession.Consistent where
  ids     := by simp [newSession]
  tracked := fun id r hr he => by
    cases List.mem_singleton.mp (Table.mem_of_row? hr)
    exact (he rfl).elim

end Mergepay.Anchors

namespace Mergepay.Withdrawals

open Concurrency

def WithdrawalAction.fails : WithdrawalAction → Bool
  | updateFrom _ _ data => data.status = some .failed
  | _                   => false

-- A transaction on behalf of a confirmation either fails the withdrawal, or commits only while the
-- withdrawal is pending.
def ConfirmedOnce : WithdrawalStep → WithdrawalStore → Prop
  | .commit (.confirm _ _ id _) log, s =>
    (written log).any (·.fails) ∨ (s.withdrawal id).any (·.status = .pending)
  | _, _ => True

instance (a : WithdrawalStep) (s : WithdrawalStore) : Decidable (ConfirmedOnce a s) := by
  unfold ConfirmedOnce
  split <;> infer_instance

-- The transaction that has been opened for the client is the one that the withdrawal tracks.
def Tracked : WithdrawalRequest → Option Confirmation → WithdrawalStore → Prop
  | .confirm _ _ id _, some confirmation, s =>
    ∀ interactive ∈ confirmation.interactive, s.Has id (·.anchorTxId = some interactive.id)
  | _, _, _ => True

section

variable {D : WithdrawalDeps} {s s' : WithdrawalStore} {id anchorTxId : String} {i : WithdrawalRequest}
  {as : List WithdrawalAction}

-- What is written by a transaction that fails a withdrawal.
theorem anchorTxId_of_fails {w w' : Withdrawal} (h : RequestWrites i s as)
    (hf : as.any (·.fails) = true) (hw : s.withdrawal id = some w)
    (hw' : (as.foldl (fun s a => withdrawalEffect a s) s).withdrawal id = some w') :
    w'.anchorTxId = w.anchorTxId := by
  cases h with
  | nothing | updated => simp [WithdrawalAction.fails] at hf
  | @changed own current data audit _ _ hd =>
    have hf : data.status = some .failed := by simpa [WithdrawalAction.fails] using hf
    have ht : data.anchorTxId = none := by
      by_contra hn
      cases hf.symm.trans (hd hn).2
    have hrow := (withdrawal_update.symm.trans hw').symm
    rw [hw, Option.map_some] at hrow
    rw [Option.some.inj hrow]
    split
    · simp [Withdrawal.set, ht]
    · rfl

theorem persists_anchorTxId : Persists ConfirmedOnce id (·.anchorTxId = some anchorTxId) := by
  intro i log s w w' hs hc hd hw hw' hm hx
  rcases hm.anchorTxId with he | ⟨⟨u, p, xdr, rfl⟩, _⟩
  case inl => exact he.trans hx
  case inr =>
    rcases hc with hf | hp
    case inl =>
      rw [Database.view_filter effect_of_reads] at hw'
      exact (anchorTxId_of_fails hd hf hw hw').trans hx
    case inr =>
      -- A withdrawal that is still pending does not track anything.
      have hrow : s.withdrawal w.id = some w := (Table.key_of_row? hw : w.id = id) ▸ hw
      rw [hrow, Option.any_some, decide_eq_true_eq] at hp
      exact (hs.tracked w.id w hrow (by simp [hx]) hp).elim

theorem confirmation_target {userId token : String} {interactive : Interactive} :
    (confirmation userId id token interactive).target = .processing :=
  congrArg (·.getD .processing) (known_name .processing)

theorem confirmation_fails {userId token : String} {interactive : Interactive} {w : Withdrawal} {rest}
    {v : WithdrawalTransitionResult} (h : TransitionRuns (confirmation userId id token interactive) w rest v) :
    (written (⟨.findWithdrawal id, .ok (some w)⟩ :: rest)).any (·.fails) = false := by
  cases h with
  | ignored | repeated | updated | superseded => rfl
  | changed =>
    simp [written, Log.performed, Entry.performed, WithdrawalAction.writes, WithdrawalAction.fails,
      TransitionParams.data, confirmation_target]

theorem confirmation_tracked {userId publicKey xdr token : String} {interactive : Interactive}
    (h₀ : s.Consistent) (hs : s.Has id fun _ => True) : (withdrawalProtocol D ConfirmedOnce).Safe
      (transition (.confirm userId publicKey id xdr) (confirmation userId id token interactive))
      (fun _ s' => s'.Has id (·.anchorTxId = some interactive.id)) (fun _ _ => True) s := by
  refine transition_safe confirmation_tracks fun log v s₁ s₂ ha ht hi₁ hc had he₂ => ?_
  obtain ⟨w, rest, rfl, hr⟩ := applyWithdrawalTransition_done ha
  have hpending : (s₁.withdrawal id).any (·.status = .pending) = true :=
    (hc.1 : _ ∨ _).resolve_left fun hf => by cases (confirmation_fails hr).symm.trans hf
  -- The withdrawal has been pending all the time, since it does not become so again.
  have hread {s' : WithdrawalStore} (hb : Database.Between (withdrawalProtocol D ConfirmedOnce) s s₁ s')
      {r : Withdrawal} (hr : s'.withdrawal id = some r) : r.status = .pending := by
    by_contra hn
    have ⟨r₁, hr₁, hst⟩ := persists_started.evolves hb.after hb.inv ⟨r, hr, hn⟩
    rw [hr₁, Option.any_some, decide_eq_true_eq] at hpending
    exact hst hpending
  have ⟨s₀, hb, hrow⟩ := read_withdrawal ht
  have hst := hread hb hrow
  cases hr with
  | ignored _ hn =>
    rw [confirmation_target, hst] at hn
    simp [WithdrawalStatus.canTransition, WithdrawalStatus.allowedTransitions] at hn
  | repeated he => cases (hst ▸ confirmation_target ▸ he : WithdrawalStatus.processing = .pending)
  | updated he  => cases (hst ▸ confirmation_target ▸ he : WithdrawalStatus.processing = .pending)
  | superseded =>
    have ⟨x, s₃, hb, _, _, hx⟩ := ht [_] _ [_] rfl
    have ⟨r, hr, _⟩ := persists_trivial.evolves hb.before h₀ hs
    exact (not_status_of_noneMatched hr hx ((hread hb hr).trans hst.symm)).elim
  | changed hc' =>
    have ⟨r, _, _, hv⟩ := view_changed (.changed hc') rfl had
    exact persists_anchorTxId.evolves he₂ ((view_moves hc.2).consistent hi₁) ⟨_, hv, rfl⟩

theorem withdrawalResponse_tracked (i : WithdrawalRequest) (s : WithdrawalStore) (hi : s.Consistent) :
    (withdrawalProtocol D ConfirmedOnce).Safe (withdrawalResponse D i) (Tracked i) (fun _ _ => True) s := by
  cases i with
  | confirm => exact .map (confirm_safe hi fun _ _ _ => confirmation_tracked)
  | poll | webhook => exact .map ((withdrawalRequest_sound _ s hi).mono (fun _ _ _ _ h => h) fun _ _ _ _ h => h)

end

def returned (anchorTxId : String) (c : ResponseConfig) : Bool :=
  c.shared.reports.any fun
    | (.confirm "alice" "GALICE" "withdrawal" "xdr", some ⟨_, some interactive⟩) => interactive.id = anchorTxId
    | _ => false

def tracking (anchorTxId : String) (c : ResponseConfig) : Bool :=
  (c.shared.state.withdrawal "withdrawal").any (·.anchorTxId = some anchorTxId)

theorem reported_of_returned {c : ResponseConfig} {anchorTxId : String} (h : returned anchorTxId c = true) :
    ∃ confirmation interactive,
      (.confirm "alice" "GALICE" "withdrawal" "xdr", some confirmation) ∈ c.shared.reports ∧
      confirmation.interactive = some interactive ∧ interactive.id = anchorTxId := by
  have ⟨⟨i, v⟩, hm, h⟩ := List.any_eq_true.mp h
  split at h
  case h_2 => cases h
  case h_1 w interactive he =>
    cases he
    exact ⟨_, interactive, hm, rfl, of_decide_eq_true h⟩

end Mergepay.Withdrawals

namespace Mergepay

open Concurrency

-- In every run in which a session is completed only while it is incomplete, and a withdrawal is confirmed
-- only while it is pending: a transaction of the anchor that has been returned to a client is the one that
-- is tracked from then on.
theorem transfers_tracked (D : Anchors.AnchorDeps) (E : Withdrawals.WithdrawalDeps) :
    (∀ (s : Anchors.AnchorStore) (c c' : Anchors.ServerConfig)
        (userId publicKey id xdr : String) (completion : Anchors.Completion), s.Consistent →
      (Anchors.sessionServer D).Run (Reported.Meets Anchors.CompletedOnce) ⟨⟨s, []⟩, []⟩ c →
      (.complete userId publicKey id xdr, .completed completion) ∈ c.shared.reports →
      (Anchors.sessionServer D).Run (Reported.Meets Anchors.CompletedOnce) c c' →
      c'.shared.state.Has id (·.externalTransactionId = some completion.interactive.id)) ∧
    (∀ (s : Withdrawals.WithdrawalStore)
        (c c' : Withdrawals.ResponseConfig) (userId publicKey id xdr : String)
        (confirmation : Withdrawals.Confirmation) (interactive : Withdrawals.Interactive), s.Consistent →
      (Withdrawals.withdrawalResponses E).Run (Reported.Meets Withdrawals.ConfirmedOnce) ⟨⟨s, []⟩, []⟩ c →
      (.confirm userId publicKey id xdr, some confirmation) ∈ c.shared.reports →
      confirmation.interactive = some interactive →
      (Withdrawals.withdrawalResponses E).Run (Reported.Meets Withdrawals.ConfirmedOnce) c c' →
      c'.shared.state.Has id (·.anchorTxId = some interactive.id)) := by
  constructor
  case left =>
    intro s c c' userId publicKey id xdr completion hs r hr r'
    have h : (Anchors.sessionProtocol Anchors.CompletedOnce).Reports Anchors.Tracked c' :=
      (Protocol.Reports.init hs).run (fun _ _ => And.intro) Anchors.sessionRequest_tracked (r.trans r')
    exact h.holds (reported_run r' hr)
  case right =>
    intro s c c' userId publicKey id xdr confirmation interactive hs r hr hi r'
    have h : (Withdrawals.withdrawalProtocol E Withdrawals.ConfirmedOnce).Reports Withdrawals.Tracked c' :=
      (Protocol.Reports.init hs).run (fun _ _ => And.intro) Withdrawals.withdrawalResponse_tracked
        (r.trans r')
    exact h.holds (reported_run r' hr) interactive hi

theorem transfers_tracked_sample :
    (∃ c : Anchors.ServerConfig, Anchors.returned "tx" c = true ∧
      ∀ c', (Anchors.sessionServer Anchors.anchorConfig).Run (Reported.Meets Anchors.CompletedOnce) c c' →
        c'.shared.state.Has "session" (·.externalTransactionId = some "tx")) ∧
    ∃ c : Withdrawals.ResponseConfig, Withdrawals.returned "tx" c = true ∧
      ∀ c', (Withdrawals.withdrawalResponses Withdrawals.withdrawalConfig).Run
        (Reported.Meets Withdrawals.ConfirmedOnce) c c' →
          c'.shared.state.Has "withdrawal" (·.anchorTxId = some "tx") := by
  constructor
  case left =>
    have ⟨c, r, hc⟩ := System.exists_run_of_play (C := Reported.Meets Anchors.CompletedOnce)
      (S := Anchors.sessionServer Anchors.anchorConfig) (c := ⟨⟨Anchors.newSession, []⟩, []⟩)
      (p := Anchors.returned "tx") (Anchors.completing 0 "tx" ++ Anchors.observing 0 7) (by decide +kernel)
    have ⟨completion, hr, he⟩ := Anchors.reported_of_returned hc
    exact ⟨c, hc, fun c' r' => he ▸
      (transfers_tracked _ Withdrawals.withdrawalConfig).1 _ c c' _ _ _ _ completion Anchors.newSession_consistent r hr r'⟩
  case right =>
    have ⟨c, r, hc⟩ := System.exists_run_of_play (C := Reported.Meets Withdrawals.ConfirmedOnce)
      (S := Withdrawals.withdrawalResponses Withdrawals.withdrawalConfig)
      (c := ⟨⟨Withdrawals.newWithdrawal, []⟩, []⟩) (p := Withdrawals.returned "tx")
      (Withdrawals.confirming 0 "tx" ++ Withdrawals.observing 0 6) (by decide +kernel)
    have ⟨confirmation, interactive, hr, hi, he⟩ := Withdrawals.reported_of_returned hc
    exact ⟨c, hc, fun c' r' => he ▸
      (transfers_tracked Anchors.anchorConfig _).2 _ c c' _ _ _ _ confirmation interactive Withdrawals.newWithdrawal_consistent
        r hr hi r'⟩

-- Another completion of the session, and another confirmation of the withdrawal, replace the transaction
-- that the client has been told about.
theorem transfers_dropped :
    (∃ c : Anchors.ServerConfig, (Anchors.sessionServer Anchors.anchorConfig).Run (fun _ _ => True)
        ⟨⟨Anchors.newSession, []⟩, []⟩ c ∧
      Anchors.returned "tx" c = true ∧ Anchors.returned "tx2" c = true ∧ Anchors.tracking "tx" c = false) ∧
    ∃ c : Withdrawals.ResponseConfig, (Withdrawals.withdrawalResponses Withdrawals.withdrawalConfig).Run
        (fun _ _ => True) ⟨⟨Withdrawals.newWithdrawal, []⟩, []⟩ c ∧
      Withdrawals.returned "tx" c = true ∧ Withdrawals.returned "tx2" c = true ∧
      Withdrawals.tracking "tx" c = false := by
  constructor
  case left =>
    have ⟨c, r, hc⟩ := System.exists_run_of_play (C := fun _ _ => True)
      (S := Anchors.sessionServer Anchors.anchorConfig) (c := ⟨⟨Anchors.newSession, []⟩, []⟩)
      (p := fun c => Anchors.returned "tx" c ∧ Anchors.returned "tx2" c ∧ Anchors.tracking "tx" c = false)
      (Anchors.completing 0 "tx" ++ Anchors.observing 0 7 ++ Anchors.completing 1 "tx2" ++
        Anchors.observing 1 4) (by decide +kernel)
    exact ⟨c, r, of_decide_eq_true hc⟩
  case right =>
    have ⟨c, r, hc⟩ := System.exists_run_of_play (C := fun _ _ => True)
      (S := Withdrawals.withdrawalResponses Withdrawals.withdrawalConfig)
      (c := ⟨⟨Withdrawals.newWithdrawal, []⟩, []⟩)
      (p := fun c => Withdrawals.returned "tx" c ∧ Withdrawals.returned "tx2" c ∧
        Withdrawals.tracking "tx" c = false)
      (Withdrawals.confirming 0 "tx" ++ Withdrawals.confirming 1 "tx2" ++ Withdrawals.observing 0 6 ++
        Withdrawals.observing 1 4) (by decide +kernel)
    exact ⟨c, r, of_decide_eq_true hc⟩

end Mergepay
