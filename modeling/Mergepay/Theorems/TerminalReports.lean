import Mergepay.Anchors.Runs

namespace Mergepay.Anchors

open Concurrency Withdrawals

-- The callback reports that the transfer has ended.
def Sep24Callback.ReportsEnd (callback : Sep24Callback) : Prop :=
  (Sep24TransactionStatus.known (mapAnchorStatus callback.rawStatus)).any (·.isTerminal) = true

instance (callback : Sep24Callback) : Decidable callback.ReportsEnd :=
  inferInstanceAs (Decidable (_ = true))

-- When such a callback performs its update, the session still has the status that has been read, or has
-- ended as well.
def ReportsInTime : SessionAct → AnchorStore → Prop
  | .act (.callback _ callback) _ (.updateFrom id current _ _), s => callback.ReportsEnd →
    (s.session id).all fun r => r.status = current ∨ r.status.isTerminal
  | _, _ => True

instance (a : SessionAct) (s : AnchorStore) : Decidable (ReportsInTime a s) := by
  unfold ReportsInTime
  split <;> infer_instance

-- What is promised by a response, from then on.
def Reported.Ended : SessionRequest → SessionResponse → AnchorStore → Prop
  | .callback _ callback, .applied result, s => callback.ReportsEnd →
    ∀ session ∈ result.matched, s.Has session.id (·.status.isTerminal = true)
  | _, _, _ => True

section

variable {D : AnchorDeps} {i : SessionRequest} {s s' : AnchorStore} {callback : Sep24Callback}
  {id : String}

theorem nextStatus_terminal (h : callback.ReportsEnd) : ∃ target,
    Sep24TransactionStatus.known (D.callbackTransition callback id).nextStatus = some target ∧
      target.isTerminal = true := by
  simp only [AnchorDeps.callbackTransition, toSessionStatus]
  split
  case isTrue  => exact ⟨.error, by decide, rfl⟩
  case isFalse => exact (Option.any_eq_true ..).mp h

-- A transition on behalf of a callback that reports the end leaves the session in a terminal state. It is
-- not refused, because the session has been started.
theorem callbackTransition_ended {service : CallbackService} (hi : i = .callback service callback)
    (he : callback.ReportsEnd) (h₀ : s.Consistent) (hs : s.Has id (·.status ≠ .incomplete)) :
    (sessionProtocol ReportsInTime).Safe (transition i (D.callbackTransition callback id))
      (fun _ s' => s'.Has id (·.status.isTerminal = true)) (fun _ _ => True) s := by
  refine transition_safe (fun data hd hx => ?_) fun log v s₁ s₂ ha ht hi₁ hc had he₂ => ?_
  · exact (hx (externalId_of_anonymous (buildExtraData_anonymous data hd))).elim
  have ⟨target, hk, hterm⟩ : ∃ target, Sep24TransactionStatus.known (D.callbackTransition callback id).nextStatus =
      some target ∧ target.isTerminal = true := nextStatus_terminal he
  obtain ⟨session, rest, rfl, hr⟩ := applyAnchorSessionTransition_done ha
  have ⟨s₀, hb, hrow⟩ := read_session ht
  have hview (h : s₁.Has id (·.status.isTerminal = true)) : s₂.Has id (·.status.isTerminal = true) :=
    persists_terminal.evolves he₂ ((view_moves hc.2 had).2 hi₁) (persists_terminal.view hi₁ hc had h)
  -- It suffices that the session that has been read has ended.
  have hread (h : session.status.isTerminal = true) : s₂.Has id (·.status.isTerminal = true) :=
    hview <| persists_terminal.evolves hb.after hb.inv ⟨session, hrow, h⟩
  have hstarted : session.status ≠ .incomplete := by
    have ⟨r, hr, hst⟩ := persists_started.evolves hb.before h₀ hs
    cases hrow.symm.trans hr
    exact hst
  cases hr with
  | ignored hn =>
    have ⟨_, hn⟩ := hn target hk
    rcases hn with hn | hn
    case inr => cases hn
    case inl =>
      refine hread ?_
      cases ht : session.status.isTerminal with
      | true  => rfl
      | false => exact (hn (Sep24TransactionStatus.canTransition_terminal hstarted ht hterm)).elim
  | repeated hk'  => exact hread (Option.some.inj (hk.symm.trans hk') ▸ hterm)
  | updated hk'   => exact hread (Option.some.inj (hk.symm.trans hk') ▸ hterm)
  | superseded =>
    have ⟨x, s₃, hb, hc₃, _, hx⟩ := ht [_] _ [] rfl
    have ⟨r, hr, _⟩ := persists_started.evolves hb.before h₀ hs
    have hcur := not_status_of_noneMatched hr hx
    subst hi
    have hall := hc₃.1 he
    rw [show s₃.session (D.callbackTransition callback id).sessionId = some r from hr, Option.all_some,
      decide_eq_true_eq] at hall
    have hended := hall.resolve_left hcur
    exact hview <| persists_terminal.evolves hb.after hb.inv ⟨r, hr, hended⟩
  | changed hk' hc' =>
    have ⟨r, _, _, hv⟩ := view_changed (.changed hk' hc') rfl hk had
    exact persists_terminal.evolves he₂ ((view_moves hc.2 had).2 hi₁) ⟨_, hv, hterm⟩

theorem applyToSessions_ended {service : CallbackService} (hi : i = .callback service callback)
    (he : callback.ReportsEnd) {sessions : List AnchorSession} {updated : Nat} (h₀ : s.Consistent)
    (hs : ∀ session ∈ sessions, s.Has session.id (·.status ≠ .incomplete)) :
    (sessionProtocol ReportsInTime).Safe (applyToSessions D i callback updated sessions)
      (fun _ s' => ∀ session ∈ sessions, s'.Has session.id (·.status.isTerminal = true))
      (fun _ _ => True) s := by
  induction sessions generalizing updated s with
  | nil           => exact .done fun _ _ _ => by simp
  | cons hd tl ht =>
    have ⟨hhd, htl⟩ := List.forall_mem_cons.mp hs
    refine .bind h₀ <| (callbackTransition_ended hi he h₀ hhd).mono (fun r s₁ he₁ hi₁ hended => ?_)
      fun _ _ _ _ _ => trivial
    have hs₁ (session) (hm : session ∈ tl) : s₁.Has session.id (·.status ≠ .incomplete) :=
      persists_started.evolves he₁ h₀ (htl session hm)
    refine (ht hi₁ hs₁).mono (fun _ s₂ he₂ _ hrest => ?_) fun _ _ _ _ h => h
    exact List.forall_mem_cons.mpr ⟨persists_terminal.evolves he₂ hi₁ hended, hrest⟩

theorem found_sessions {externalId : String} {sessions : List AnchorSession} {x : AnchorChoice}
    (h : sessionSystem.exec (.act i [] (.findByExternalId externalId)) x s = some (.ok sessions, s')) :
    sessions = s.sessions.filter (·.externalTransactionId = some externalId) := by
  have h : anchorDatabase.exec (.act i [] (.findByExternalId externalId)) x s = some (.ok sessions, s') := h
  have ⟨_, _, hr⟩ := Database.exec_act h
  cases x <;> simp [anchorDatabase, anchorAnswer, Database.view] at hr
  exact hr.symm

theorem applySep24Callback_ended {service : CallbackService} (hi : i = .callback service callback)
    (he : callback.ReportsEnd) (h₀ : s.Consistent) :
    (sessionProtocol ReportsInTime).Safe (applySep24Callback D i service callback)
      (fun result s' => ∀ session ∈ result.matched, s'.Has session.id (·.status.isTerminal = true))
      (fun _ _ => True) s := by
  refine .perform_bind h₀ (fun _ _ _ => trivial) fun sessions s₁ he₁ hi₁ hfound => ?_
  -- Every session that is found has been started, since it is tracked.
  have hs (session) (hm : session ∈ sessions) : s₁.Has session.id (·.status ≠ .incomplete) := by
    have ⟨s₀, h₀, hhas, hlater⟩ := hfound.before
      (F := fun s => ∀ session ∈ sessions, s.Has session.id (·.status ≠ .incomplete))
      fun x s₂ s₃ hi₂ hx session hm => by
        have ⟨hm, hx⟩ := List.mem_filter.mp (found_sessions hx ▸ hm)
        have hrow := Table.row?_of_mem (k := (·.id)) hi₂.ids hm
        exact ⟨session, hrow, hi₂.tracked _ _ hrow (by simp [of_decide_eq_true hx])⟩
    exact persists_started.evolves hlater h₀ (hhas session hm)
  simp only [Prog.bind_eq]
  split
  case isTrue =>
    refine .bind hi₁ <| (Orderly.fine ((orderly _).audit_within _) s₁).mono (fun _ _ _ _ _ => ?_) fun _ _ _ _ h => h
    exact .done fun _ _ _ => by simp
  case isFalse =>
    refine .bind hi₁ <| (applyToSessions_ended hi he hi₁ hs).mono (fun updated s₂ he₂ hi₂ hended => ?_)
      fun _ _ _ _ h => h
    refine .bind hi₂ <| (Orderly.fine ((orderly _).audit_within _) s₂).mono (fun _ s₃ he₃ _ _ => ?_) fun _ _ _ _ h => h
    refine .done fun s₄ he₄ _ session hm => ?_
    exact persists_terminal.evolves (he₃.trans he₄) hi₂ (hended session hm)

theorem sessionRequest_ended (i : SessionRequest) (s : AnchorStore) (hi : s.Consistent) :
    (sessionProtocol ReportsInTime).Safe (sessionRequest D i) (Reported.Ended i) (fun _ _ => True) s := by
  cases i with
  | callback service callback =>
    refine .map ?_
    by_cases he : callback.ReportsEnd
    case pos => exact (applySep24Callback_ended rfl he hi).mono (fun _ _ _ _ h _ => h) fun _ _ _ _ h => h
    case neg =>
      refine (Orderly.fine (orderly _).applySep24Callback_within s).mono (fun _ _ _ _ _ h => (he h).elim) fun _ _ _ _ h => h
  | complete =>
    exact .map (complete_safe hi fun _ _ _ _ _ => transition_fine completionTransition_tracks)
  | start | poll | recover =>
    exact Orderly.fine ((orderly _).sessionRequest_within (by rintro id ⟨_, _, _, h⟩; cases h)) s

-- In every run in which callbacks that report the end of a transfer perform their updates while the
-- session still has the status that has been read, or has ended as well: once such a callback has
-- been acknowledged, all sessions that it has matched are in a terminal state from then on.
theorem terminal_reports_kept {c c' : ServerConfig} {service : CallbackService}
    {result : Sep24ApplyResult} (hs : s.Consistent)
    (r : (sessionServer D).Run (Reported.Meets ReportsInTime) ⟨⟨s, []⟩, []⟩ c)
    (hr : (.callback service callback, .applied result) ∈ c.shared.reports) (he : callback.ReportsEnd)
    (r' : (sessionServer D).Run (Reported.Meets ReportsInTime) c c') :
    ∀ session ∈ result.matched, c'.shared.state.Has session.id (·.status.isTerminal = true) := by
  have h : (sessionProtocol ReportsInTime).Reports Reported.Ended c' :=
    (Protocol.Reports.init hs).run (fun _ _ => And.intro) sessionRequest_ended (r.trans r')
  exact h.holds (reported_run r' hr) he

end

def transferCompleted : Sep24Callback where
  externalTransactionId := "tx"
  rawStatus             := "completed"

def transferPending : Sep24Callback where
  externalTransactionId := "tx"
  rawStatus             := "pending_stellar"

-- A callback that is not disturbed.
def receiving (n : Nat) (callback : Sep24Callback) : List (Label AnchorChoice Time SessionRequest) :=
  [.spawn (.callback .token callback)] ++ observing n 10

def acknowledged (c : ServerConfig) : Bool :=
  c.shared.reports.any fun
    | (.callback .token callback, .applied result) =>
      callback = transferCompleted ∧ result.matched = sampleSessions.sessions
    | _ => false

theorem reported_of_acknowledged {c : ServerConfig} (h : acknowledged c = true) : ∃ result,
    (.callback .token transferCompleted, .applied result) ∈ c.shared.reports ∧
      result.matched = sampleSessions.sessions := by
  have ⟨⟨i, v⟩, hm, h⟩ := List.any_eq_true.mp h
  split at h
  case h_2 => cases h
  case h_1 callback result he =>
    cases he
    have ⟨hc, hr⟩ := of_decide_eq_true h
    exact ⟨result, hc ▸ hm, hr⟩

theorem sampleSessions_consistent : sampleSessions.Consistent where
  ids     := by simp [sampleSessions]
  tracked := fun id r hr _ => by
    have hm := Table.mem_of_row? hr
    cases List.mem_singleton.mp hm
    decide

theorem terminal_reports_kept_sample : ∃ c : ServerConfig, acknowledged c = true ∧
    ∀ c', (sessionServer anchorConfig).Run (Reported.Meets ReportsInTime) c c' →
      c'.shared.state.Has "session" (·.status.isTerminal = true) := by
  have ⟨c, r, hc⟩ := System.exists_run_of_play (C := Reported.Meets ReportsInTime)
    (S := sessionServer anchorConfig) (c := ⟨⟨sampleSessions, []⟩, []⟩) (p := acknowledged)
    (receiving 0 transferCompleted) (by decide +kernel)
  refine ⟨c, hc, fun c' r' => ?_⟩
  have ⟨result, hm, hr⟩ := reported_of_acknowledged hc
  have h := terminal_reports_kept sampleSessions_consistent r hm (by decide) r'
  rw [hr] at h
  exact h _ List.mem_cons_self

-- The status changes after it has been read on behalf of a callback, but before it is updated.
def overtaken : List (Label AnchorChoice Time SessionRequest) :=
  .flatten [
    [.spawn (.callback .token transferCompleted)], observing 0 2, receiving 1 transferPending, observing 0 5
  ]

-- The callback is acknowledged, although the report is lost.
theorem terminal_report_lost : ∃ (c : ServerConfig) (result : Sep24ApplyResult),
    (sessionServer anchorConfig).Run (fun _ _ => True) ⟨⟨sampleSessions, []⟩, []⟩ c ∧
    (.callback .token transferCompleted, .applied result) ∈ c.shared.reports ∧
    transferCompleted.ReportsEnd ∧ result.matched.map (·.id) = ["session"] ∧
    c.shared.state.status "session" = some .pendingStellar := by
  have ⟨c, r, hc⟩ := System.exists_run_of_play (C := fun _ _ => True)
    (S := sessionServer anchorConfig) (c := ⟨⟨sampleSessions, []⟩, []⟩)
    (p := fun c => acknowledged c ∧ c.shared.state.status "session" = some .pendingStellar) overtaken
    (by decide +kernel)
  have ⟨ha, hs⟩ := of_decide_eq_true hc
  have ⟨result, hm, hr⟩ := reported_of_acknowledged ha
  exact ⟨c, result, r, hm, by decide, hr ▸ rfl, hs⟩

end Mergepay.Anchors
