import Mergepay.Withdrawals.Writes

namespace Mergepay.Withdrawals

open Concurrency

def TransitionParams.target (params : TransitionParams) : WithdrawalStatus :=
  (WithdrawalStatus.known params.nextStatus).getD .processing

-- The columns that are written by a change of the status.
def TransitionParams.data (params : TransitionParams) : WithdrawalData :=
  { params.extraData.getD {} with status := some params.target }

-- How a transition has been processed, by what it has read.
inductive TransitionRuns (params : TransitionParams) (w : Withdrawal) :
    Log WithdrawalAction WithdrawalAction.Answer Failure → WithdrawalTransitionResult → Prop
  | ignored : params.target ≠ w.status → (¬w.status.canTransition params.target = true ∨
      params.target = .completed ∧ params.source = .user) → TransitionRuns params w [] ⟨w, false⟩
  | repeated : params.target = w.status → params.extraData = none → TransitionRuns params w [] ⟨w, false⟩
  | updated {data : WithdrawalData} {row : Withdrawal} : params.target = w.status →
    params.extraData = some data →
    TransitionRuns params w [⟨.update params.withdrawalId data, .ok row⟩] ⟨row, false⟩
  | superseded {row : Option Withdrawal} : w.status.canTransition params.target = true →
    TransitionRuns params w [⟨.updateFrom params.withdrawalId w.status params.data, .error noneMatched⟩,
      ⟨.findWithdrawal params.withdrawalId, .ok row⟩] ⟨row.getD w, false⟩
  | changed {row : Option Withdrawal} : w.status.canTransition params.target = true →
    TransitionRuns params w [⟨.updateFrom params.withdrawalId w.status params.data, .ok ()⟩,
      ⟨.findWithdrawal params.withdrawalId, .ok row⟩,
      ⟨.createAudit (statusChanged params w params.target), .ok ()⟩] ⟨row.getD w, true⟩

section

variable {params : TransitionParams} {w : Withdrawal} {v : WithdrawalTransitionResult}
  {log : Log WithdrawalAction WithdrawalAction.Answer Failure}

theorem findWithdrawal_done (h : (findWithdrawal params).After log (.done w)) :
    log = [⟨.findWithdrawal params.withdrawalId, .ok (some w)⟩] := by
  obtain ⟨l₁, l₂, found, rfl, h₁, h₂⟩ := Prog.After.bind_done h
  rw [h₁.of_perform]
  cases found with
  | none   => exact h₂.not_fail.elim
  | some r =>
    simp only [Prog.bind_eq, Prog.throw_eq, Prog.fail_bind, Prog.pure_eq] at h₂
    split at h₂
    · exact h₂.not_fail.elim
    · obtain ⟨rfl, hr⟩ := h₂.of_done
      cases hr
      rfl

theorem changeStatus_done (hc : w.status.canTransition params.target = true)
    (h : (changeStatus params w params.target).After log (.done v)) : TransitionRuns params w log v := by
  obtain ⟨l₁, l₂, r, rfl, h₁, h₂⟩ := Prog.After.bind_done h
  rcases h₁.attempt_done with ⟨u, rfl, hu⟩ | ⟨e, rfl, hu⟩
  case inl =>
    rw [hu.of_perform]
    obtain ⟨l₃, l₄, row, rfl, h₃, h₄⟩ := Prog.After.bind_done h₂
    obtain ⟨l₅, l₆, _, rfl, h₅, h₆⟩ := Prog.After.bind_done h₄
    rw [h₃.of_perform, h₅.of_perform]
    obtain ⟨rfl, hv⟩ := h₆.of_done
    cases hv
    exact .changed hc
  case inr =>
    rw [hu.of_perform_fail]
    simp only [Prog.bind_eq, Prog.throw_eq, Prog.fail_bind] at h₂
    split at h₂
    case isTrue      => exact h₂.not_fail.elim
    case isFalse he =>
      obtain ⟨l₃, l₄, row, rfl, h₃, h₄⟩ := Prog.After.bind_done h₂
      rw [h₃.of_perform]
      obtain ⟨rfl, hv⟩ := h₄.of_done
      cases hv
      rw [not_not.mp he]
      exact .superseded hc

theorem applyWithdrawalTransition_done
    (h : (applyWithdrawalTransition params).After log (.done v)) : ∃ w rest,
    log = ⟨.findWithdrawal params.withdrawalId, .ok (some w)⟩ :: rest ∧ TransitionRuns params w rest v := by
  obtain ⟨l₁, l₂, w, rfl, h₁, h₂⟩ := Prog.After.bind_done h
  refine ⟨w, l₂, by rw [findWithdrawal_done h₁]; rfl, ?_⟩
  simp only at h₂
  split at h₂
  case isTrue he =>
    unfold keepStatus at h₂
    split at h₂
    case h_1 hd =>
      obtain ⟨rfl, hv⟩ := h₂.of_done
      cases hv
      exact .repeated he hd
    case h_2 data hd =>
      obtain ⟨l₁, l₃, row, rfl, h₁, h₃⟩ := Prog.After.bind_done h₂
      rw [h₁.of_perform]
      obtain ⟨rfl, hv⟩ := h₃.of_done
      cases hv
      exact .updated he hd
  case isFalse hne =>
    split at h₂
    case isTrue hc =>
      obtain ⟨rfl, hv⟩ := h₂.of_done
      cases hv
      exact .ignored hne hc
    case isFalse hc => exact changeStatus_done (not_not.mp fun hn => hc (.inl hn)) h₂

end

-- A request that confirms a withdrawal.
def WithdrawalRequest.Confirms (i : WithdrawalRequest) (id : String) : Prop :=
  ∃ userId publicKey xdr, i = .confirm userId publicKey id xdr

-- What is written on behalf of a request, in the state in which it commits. The id of a transaction is
-- recorded by nothing but the confirmation of a withdrawal, which is in progress from then on.
inductive RequestWrites (i : WithdrawalRequest) (s : WithdrawalStore) : List WithdrawalAction → Prop
  | nothing : RequestWrites i s []
  | updated {id : String} {data : WithdrawalData} : (∀ status ∈ data.status, status ≠ .pending) →
    (data.anchorTxId ≠ none → i.Confirms id ∧ ∀ w, s.withdrawal id = some w → w.status ≠ .pending) →
    RequestWrites i s [.update id data]
  | changed {id : String} {current : WithdrawalStatus} {data : WithdrawalData} {audit : WithdrawalAudit} :
    (∀ status ∈ data.status, status ≠ .pending) → data.status ≠ none →
    (data.anchorTxId ≠ none → i.Confirms id ∧ data.status = some .processing) →
    RequestWrites i s [.updateFrom id current data, .createAudit audit]

-- A transfer that is tracked has been started.
structure WithdrawalStore.Consistent (s : WithdrawalStore) : Prop where
  ids     : (s.withdrawals.map (·.id)).Nodup
  tracked : ∀ id w, s.withdrawal id = some w → w.anchorTxId ≠ none → w.status ≠ .pending

-- What a commit may do to a withdrawal.
structure Withdrawal.Moves (i : WithdrawalRequest) (w w' : Withdrawal) : Prop where
  status     : w'.status = w.status ∨ w'.status ≠ .pending
  anchorTxId : w'.anchorTxId = w.anchorTxId ∨ i.Confirms w.id ∧ w'.status ≠ .pending

theorem Withdrawal.Moves.refl {w : Withdrawal} : w.Moves i w :=
  ⟨.inl rfl, .inl rfl⟩

section

variable {i : WithdrawalRequest} {s s' : WithdrawalStore} {as : List WithdrawalAction} {id : String}

-- Rows are neither added nor removed.
structure RowsMove (i : WithdrawalRequest) (s s' : WithdrawalStore) : Prop where
  missing : ∀ id, s.withdrawal id = none → s'.withdrawal id = none
  found   : ∀ id w, s.withdrawal id = some w → ∃ w', s'.withdrawal id = some w' ∧ w.Moves i w'
  ids     : s'.withdrawals.map (·.id) = s.withdrawals.map (·.id)

theorem RowsMove.of_eq (hs : s'.withdrawals = s.withdrawals) : RowsMove i s s' where
  missing := fun id h => by rwa [WithdrawalStore.withdrawal, hs]
  found   := fun id w h => ⟨w, by rwa [WithdrawalStore.withdrawal, hs], .refl⟩
  ids     := by rw [hs]

theorem RowsMove.of_update {p : Withdrawal → Bool} {data : WithdrawalData} {now : Time}
    (hs : s'.withdrawals = Table.update p (·.set data now) s.withdrawals)
    (h : ∀ id w, s.withdrawal id = some w → p w = true → w.Moves i (w.set data now)) : RowsMove i s s' := by
  have hrow (id : String) :
      s'.withdrawal id = (s.withdrawal id).map fun w => if p w then w.set data now else w := by
    rw [WithdrawalStore.withdrawal, hs]
    exact withdrawal_update
  refine ⟨fun id hn => ?_, fun id w hw => ⟨if p w then w.set data now else w, ?_, ?_⟩, ?_⟩
  · rw [hrow, hn, Option.map_none]
  · rw [hrow, hw, Option.map_some]
  · split
    case isTrue hp => exact h id w hw hp
    case isFalse   => exact .refl
  · exact hs ▸ Table.map_update fun _ => rfl

-- A transfer that is tracked stays in progress.
theorem RowsMove.consistent (h : RowsMove i s s') (hc : s.Consistent) : s'.Consistent where
  ids     := h.ids ▸ hc.ids
  tracked := fun id w' hw' ht => by
    cases hw : s.withdrawal id with
    | none   => cases (h.missing id hw).symm.trans hw'
    | some w =>
      have ⟨w'', hw'', hm⟩ := h.found id w hw
      cases hw''.symm.trans hw'
      rcases hm.anchorTxId with hx | ⟨_, hx⟩
      case inr => exact hx
      case inl =>
        rcases hm.status with hst | hst
        case inl => exact hst ▸ hc.tracked id w hw (hx ▸ ht)
        case inr => exact hst

-- What an update does to a row that it is about.
theorem moves_set {w : Withdrawal} {data : WithdrawalData} {now : Time}
    (hs : ∀ status ∈ data.status, status ≠ .pending)
    (hd : data.anchorTxId ≠ none → i.Confirms w.id ∧ (w.status ≠ .pending ∨ data.status ≠ none)) :
    w.Moves i (w.set data now) := by
  have hst : (w.set data now).status = w.status ∨ (w.set data now).status ≠ .pending := by
    cases he : data.status with
    | none        => exact .inl (by simp [Withdrawal.set, he])
    | some status => exact .inr (by simpa [Withdrawal.set, he] using hs status he)
  refine ⟨hst, ?_⟩
  cases ht : data.anchorTxId with
  | none   => exact .inl (by simp [Withdrawal.set, ht])
  | some x =>
    have ⟨hc, hn⟩ := hd (by simp [ht])
    refine .inr ⟨hc, ?_⟩
    cases he : data.status with
    | some status => simpa [Withdrawal.set, he] using hs status he
    | none        => simpa [Withdrawal.set, he] using hn.resolve_right (· he)

theorem RequestWrites.moves (h : RequestWrites i s as)
    (hs : s' = as.foldl (fun s a => withdrawalEffect a s) s) : RowsMove i s s' := by
  subst hs
  cases h with
  | nothing => exact .of_eq rfl
  | @updated own data hst hd =>
    refine .of_update rfl fun id w hw hp => moves_set hst fun ht => ?_
    have hown : w.id = own := of_decide_eq_true hp
    have ⟨hc, hn⟩ := hd ht
    exact ⟨hown ▸ hc, .inl (hn w (by rw [← hown, Table.key_of_row? hw, hw]))⟩
  | @changed own current data audit hst hsome hd =>
    refine .of_update rfl fun id w _ hp => moves_set hst fun ht => ?_
    have ⟨hown, _⟩ : w.id = own ∧ w.status = current := of_decide_eq_true hp
    exact ⟨hown ▸ (hd ht).1, .inr hsome⟩

end

def withdrawalDue : WithdrawalStep → WithdrawalStore → Prop
  | .act _ _ _, _    => True
  | .commit i log, s => RequestWrites i s (written log)

theorem view_moves {i : WithdrawalRequest} {log : Log WithdrawalAction WithdrawalAction.Answer Failure}
    {s : WithdrawalStore} (h : withdrawalDue (.commit i log) s) :
    RowsMove i s (withdrawalDatabase.view log s) :=
  RequestWrites.moves h (Database.view_filter effect_of_reads)

-- The commits of a run are required to meet a condition. In return, all of them write as expected.
def withdrawalProtocol (D : WithdrawalDeps) (C : WithdrawalStep → WithdrawalStore → Prop) :
    Protocol (withdrawalServer D) :=
  Database.protocol C withdrawalDue WithdrawalStore.Consistent (fun _ _ _ hi _ hd _ => (view_moves hd).consistent hi)
    fun _ _ _ hi he => (RowsMove.of_eq (i := .poll) (withdrawalEnv_eq he ▸ rfl)).consistent hi

-- There is a certain withdrawal that satisfies a condition.
def WithdrawalStore.Has (s : WithdrawalStore) (id : String) (K : Withdrawal → Prop) : Prop :=
  ∃ w, s.withdrawal id = some w ∧ K w

-- The condition is not affected by any commit that may happen.
def Persists (C : WithdrawalStep → WithdrawalStore → Prop) (id : String) (K : Withdrawal → Prop) : Prop :=
  ∀ i log s w w', s.Consistent → C (.commit i log) s → withdrawalDue (.commit i log) s →
    s.withdrawal id = some w → (withdrawalDatabase.view log s).withdrawal id = some w' → w.Moves i w' →
    K w → K w'

section

variable {D : WithdrawalDeps} {C : WithdrawalStep → WithdrawalStore → Prop} {i : WithdrawalRequest}
  {id : String} {s s' s₀ : WithdrawalStore} {K : Withdrawal → Prop}
  {log : Log WithdrawalAction WithdrawalAction.Answer Failure}

theorem Persists.view (hk : Persists C id K) (hi : s.Consistent)
    (hc : (withdrawalProtocol D C).cond (.commit i log) s) (h : s.Has id K) :
    (withdrawalDatabase.view log s).Has id K := by
  have ⟨w, hw, hkw⟩ := h
  have ⟨w', hw', hm⟩ := (view_moves hc.2).found id w hw
  exact ⟨w', hw', hk i log s w w' hi hc.1 hc.2 hw hw' hm hkw⟩

theorem Persists.evolves (hk : Persists C id K)
    (he : (withdrawalServer D).Evolves (withdrawalProtocol D C).cond s s') (hi : s.Consistent)
    (h : s.Has id K) : s'.Has id K := by
  induction he with
  | refl => exact h
  | env he hx hh =>
    have ⟨w, hw, hkw⟩ := hh hi h
    exact ⟨w, by rw [withdrawalEnv_eq hx]; exact hw, hkw⟩
  | @act a x s₁ s₂ s₃ r he hc hx hh =>
    have hi₂ := (withdrawalProtocol D C).inv_of_evolves he hi
    cases a with
    | act j log a => exact (Database.exec_act hx).1 ▸ hh hi h
    | commit j log =>
      have ⟨ha, hs⟩ := Database.exec_commit hx
      rcases hs with ⟨_, hs⟩ | ⟨_, _, hs, _⟩
      case inl => exact hs ▸ hk.view hi₂ hc (hh hi h)
      case inr => exact hs ▸ hh hi h

-- A withdrawal that has been started never becomes pending again.
theorem persists_started : Persists C id (·.status ≠ .pending) := by
  intro i log s w w' _ _ _ _ _ hm hw
  rcases hm.status with hs | hs
  case inl => exact hs ▸ hw
  case inr => exact hs

theorem persists_trivial : Persists C id fun _ => True :=
  fun _ _ _ _ _ _ _ _ _ _ _ _ => trivial

theorem found_withdrawal {w : Withdrawal} {x : WithdrawalChoice}
    (h : withdrawalAnswer (.findWithdrawal id) x s = some (.ok (some w))) : s.withdrawal id = some w := by
  have hr : some (.ok (s.withdrawal id)) = some (.ok (some w) : Except Failure (Option Withdrawal)) := by
    cases x <;> first | exact h | cases h
  exact Except.ok.inj (Option.some.inj hr)

-- An update that has not found the status it is guarded by.
theorem not_status_of_noneMatched {current : WithdrawalStatus} {data : WithdrawalData} {x : WithdrawalChoice}
    {w : Withdrawal} (hw : s.withdrawal id = some w)
    (h : withdrawalAnswer (.updateFrom id current data) x s = some (.error noneMatched)) :
    w.status ≠ current := by
  rintro rfl
  cases x <;> simp [withdrawalAnswer, hw, World.connectionClosed, noneMatched] at h
  split at h <;> simp [World.uniqueViolation] at h

theorem read_answer {w : Withdrawal} {x : WithdrawalChoice} (h : (withdrawalServer D).exec
    (.act i [] (.findWithdrawal id)) x s = some (.ok (some w), s')) : s.withdrawal id = some w := by
  have h : withdrawalDatabase.exec (.act i [] (.findWithdrawal id)) x s = some (.ok (some w), s') := h
  exact found_withdrawal (Database.exec_act h).2.2

-- The row that a transition is about has been read since the transition began.
theorem read_withdrawal {w : Withdrawal} (ht : Database.Traced (withdrawalProtocol D C) i s₀ s
    (⟨.findWithdrawal id, .ok (some w)⟩ :: log)) :
    ∃ s₁, Database.Between (withdrawalProtocol D C) s₀ s s₁ ∧ s₁.withdrawal id = some w := by
  have ⟨x, s₁, hb, _, _, hr⟩ := ht [] _ log rfl
  exact ⟨s₁, hb, found_withdrawal hr⟩

variable {params : TransitionParams} {v : WithdrawalTransitionResult}

-- The id of a transaction is recorded by the confirmation of a withdrawal only, which starts it. Apart from
-- that, nothing but the status is given by a transition, which never makes a withdrawal pending.
structure TransitionParams.Tracks (params : TransitionParams) (i : WithdrawalRequest) : Prop where
  data   : ∀ data ∈ params.extraData, data.status = none ∧
    (data.anchorTxId ≠ none → i.Confirms params.withdrawalId ∧ params.target = .processing)
  target : params.target ≠ .pending

theorem transition_due (hp : params.Tracks i)
    (h : (applyWithdrawalTransition params).After log (.done v))
    (ht : Database.Traced (withdrawalProtocol D C) i s₀ s log) : RequestWrites i s (written log) := by
  obtain ⟨w, rest, rfl, hr⟩ := applyWithdrawalTransition_done h
  cases hr with
  | ignored | repeated | superseded => exact .nothing
  | @updated data row he hd =>
    have ⟨hst, hx⟩ := hp.data data hd
    refine .updated (by simp [hst]) fun hn => ?_
    have ⟨hc, hn⟩ := hx hn
    have ⟨s₁, hb, hw⟩ := read_withdrawal ht
    have hstarted : w.status ≠ .pending := he ▸ hp.target
    have ⟨w', hw', hst⟩ := persists_started.evolves hb.after hb.inv ⟨w, hw, hstarted⟩
    refine ⟨hc, fun w₁ hw₁ => ?_⟩
    cases hw'.symm.trans hw₁
    exact hst
  | changed hc =>
    refine .changed (fun status h => ?_) (by simp [TransitionParams.data]) fun hn => ?_
    · cases h
      exact hp.target
    · cases hd : params.extraData with
      | none      => exact (hn (by simp [TransitionParams.data, hd])).elim
      | some data =>
        have ⟨hc, hp⟩ := (hp.data data hd).2 (by simpa [TransitionParams.data, hd] using hn)
        exact ⟨hc, congrArg some hp⟩

theorem transition_safe {Q : WithdrawalTransitionResult → WithdrawalStore → Prop} (hp : params.Tracks i)
    (hq : ∀ log v s s', (applyWithdrawalTransition params).After log (.done v) →
      Database.Traced (withdrawalProtocol D C) i s₀ s log → s.Consistent →
      (withdrawalProtocol D C).cond (.commit i log) s → withdrawalDatabase.admitted log s = true →
      (withdrawalServer D).Evolves (withdrawalProtocol D C).cond (withdrawalDatabase.view log s) s' →
      Q v s') :
    (withdrawalProtocol D C).Safe (transition i params) Q (fun _ _ => True) s₀ :=
  Database.Transacts.safe {
    act  := fun _ _ _ => trivial
    due  := fun ha ht _ _ => transition_due hp ha ht
    done := fun ha ht hi _ hc had he _ => hq _ _ _ _ ha ht hi hc had he
    fail := fun _ _ _ _ => trivial
    lost := fun _ _ _ => trivial
  }

theorem transition_fine (hp : params.Tracks i) :
    (withdrawalProtocol D C).Fine (transition i params) s₀ :=
  transition_safe hp fun _ _ _ _ _ _ _ _ _ _ => trivial

theorem call_sound (a : WithdrawalAction) : (withdrawalProtocol D C).Sound (call i a) :=
  .perform fun _ _ => trivial

-- What is left by a transition that has changed the status.
theorem view_changed {w : Withdrawal} {rest} (hr : TransitionRuns params w rest v) (hv : v.changed = true)
    (ha : withdrawalDatabase.admitted (⟨.findWithdrawal params.withdrawalId, .ok (some w)⟩ :: rest) s = true) :
    ∃ w', s.withdrawal params.withdrawalId = some w' ∧ w'.status = w.status ∧
      (withdrawalDatabase.view (⟨.findWithdrawal params.withdrawalId, .ok (some w)⟩ :: rest) s).withdrawal
        params.withdrawalId = some (w'.set params.data s.now) := by
  cases hr with
  | ignored | repeated | updated | superseded => cases hv
  | changed =>
    rw [Database.admitted_filter effect_of_reads] at ha
    rw [Database.view_filter effect_of_reads]
    have ⟨ha, _⟩ := (Bool.and_eq_true ..).mp ha
    simp only [withdrawalDatabase, withdrawalAdmits, decide_eq_true_eq] at ha
    have ⟨w', hw', hst⟩ := (Option.any_eq_true ..).mp ha.1
    have hid : w'.id = params.withdrawalId := Table.key_of_row? hw'
    refine ⟨w', hw', of_decide_eq_true hst, withdrawal_update.trans ?_⟩
    simp [hw', hid, of_decide_eq_true hst]

end

section

variable {D : WithdrawalDeps} {C : WithdrawalStep → WithdrawalStore → Prop} {i : WithdrawalRequest}
  {id : String} {params : TransitionParams} {job : Withdrawal}

@[simp]
theorem known_name (status : WithdrawalStatus) : WithdrawalStatus.known status.name = some status := by
  cases status <;> decide

theorem mapped_ne_pending (text : String) : mapAnchorStatusToWithdrawalStatus text ≠ .pending := by
  unfold mapAnchorStatusToWithdrawalStatus
  repeat' split
  all_goals decide

-- Transitions that do not record the id of a transaction.
theorem tracks_of_untracked (hd : ∀ data ∈ params.extraData, data.status = none ∧ data.anchorTxId = none)
    (ht : params.target ≠ .pending) : params.Tracks i :=
  ⟨fun data h => ⟨(hd data h).1, fun hn => (hn (hd data h).2).elim⟩, ht⟩

theorem transition_sound (hp : params.Tracks i) : (withdrawalProtocol D C).Sound (transition i params) :=
  fun _ _ => transition_fine hp

theorem update_sound {data : WithdrawalData} (hs : ∀ status ∈ data.status, status ≠ .pending)
    (ha : data.anchorTxId = none) : (withdrawalProtocol D C).Sound (statement i (.update id data)) :=
  fun _ _ => Database.Transacts.safe {
    act  := fun _ _ _ => trivial
    due  := fun h _ _ _ => by
      show RequestWrites i _ (written _)
      rw [h.of_perform]
      exact .updated hs fun hn => (hn ha).elim
    done := fun _ _ _ _ _ _ _ _ => trivial
    fail := fun _ _ _ _ => trivial
    lost := fun _ _ _ => trivial
  }

theorem scheduleRetry_sound {attempt : Nat} {reason : String} :
    (withdrawalProtocol D C).Sound (scheduleRetry D i id attempt reason) := by
  refine .bind (call_sound _) fun _ => .bind (call_sound _) fun _ =>
    .bind (update_sound (fun _ h => by cases h) rfl) fun _ => ?_
  split
  · refine .bind (update_sound (fun _ h => ?_) rfl) fun _ => .done ()
    cases h
    decide
  · exact .done ()

theorem reconcilePolled_sound {result : PollResult} :
    (withdrawalProtocol D C).Sound (reconcilePolled D i job result) := by
  unfold reconcilePolled
  split
  case h_1 =>
    refine .bind (transition_sound <| tracks_of_untracked (fun data h => ?_) ?_) fun _ => .done ()
    · cases h
      exact ⟨rfl, rfl⟩
    · simp [TransitionParams.target]
  case h_2 => exact scheduleRetry_sound
  case h_3 status =>
    simp only
    split
    · refine .bind (transition_sound <| tracks_of_untracked (fun data h => by cases h) ?_) fun _ => .done ()
      simpa [TransitionParams.target] using mapped_ne_pending status
    · exact .done ()

theorem reconcileWithdrawals_sound : (withdrawalProtocol D C).Sound (reconcileWithdrawals D i) := by
  refine .bind (call_sound _) fun _ => .bind (call_sound _) fun _ => ?_
  split
  case isFalse => exact .done ()
  case isTrue =>
    refine .bind (.attempt (call_sound _)) fun toml => ?_
    split
    case h_1 => exact .done ()
    case h_2 =>
      refine .forEach fun job => .swallow ?_
      unfold reconcileSingleWithdrawal
      split
      · exact .bind (call_sound _) fun _ => reconcilePolled_sound
      · exact .done ()

theorem receiveWebhook_sound {externalId raw : String} :
    (withdrawalProtocol D C).Sound (receiveWebhook i externalId raw) := by
  refine .bind (call_sound _) fun _ => .bind (call_sound _) fun found => ?_
  split
  case h_1 => exact .done ()
  case h_2 w =>
    refine .bind (transition_sound <| tracks_of_untracked (fun data h => by cases h) ?_) fun _ => .done ()
    simpa [TransitionParams.target] using mapped_ne_pending _

-- The transitions on behalf of a confirmation

def confirmation (userId id token : String) (interactive : Interactive) : TransitionParams where
  withdrawalId := id
  nextStatus   := WithdrawalStatus.processing.name
  source       := .user
  ownerUserId  := some userId
  extraData    := some { anchorTxId := some interactive.id, anchorToken := some token }

def rejection (userId id : String) : TransitionParams where
  withdrawalId := id
  nextStatus   := WithdrawalStatus.failed.name
  source       := .user
  ownerUserId  := some userId

theorem confirmation_tracks {userId publicKey xdr token : String} {interactive : Interactive} :
    (confirmation userId id token interactive).Tracks (.confirm userId publicKey id xdr) where
  data   := fun data h => by
    cases h
    exact ⟨rfl, fun _ => ⟨⟨userId, publicKey, xdr, rfl⟩, by simp [TransitionParams.target, confirmation]⟩⟩
  target := by simp [TransitionParams.target, confirmation]

theorem rejection_tracks {userId : String} : (rejection userId id).Tracks i :=
  tracks_of_untracked (fun data h => by cases h) (by simp [TransitionParams.target, rejection])

-- A confirmation ends with what its transition ends with, which is about a withdrawal that exists.
theorem confirm_safe {s : WithdrawalStore} {userId publicKey xdr : String}
    {Q : Interactive → WithdrawalStore → Prop} (hi : s.Consistent)
    (hq : ∀ token interactive s, s.Consistent → s.Has id (fun _ => True) → (withdrawalProtocol D C).Safe
      (transition (.confirm userId publicKey id xdr) (confirmation userId id token interactive))
      (fun _ => Q interactive) (fun _ _ => True) s) :
    (withdrawalProtocol D C).Safe
      (confirmWithdrawal (.confirm userId publicKey id xdr) userId publicKey id xdr)
      (fun c s' => ∀ interactive ∈ c.interactive, Q interactive s') (fun _ _ => True) s := by
  refine .perform_bind hi (fun _ _ _ => trivial) fun found s₁ _ hi₁ hfound => ?_
  split
  case h_2 => exact .fail fun _ _ _ => trivial
  case h_1 w =>
    have ⟨s₀, hi₀, hrow, hlater⟩ := hfound.before (F := fun s => s.withdrawal id = some w)
      fun _ _ _ _ hx => read_answer hx
    have hid : w.id = id := Table.key_of_row? hrow
    simp only [Prog.bind_eq, Prog.throw_eq, Prog.fail_bind, Prog.pure_eq]
    split
    case isTrue => exact .fail fun _ _ _ => trivial
    split
    case isTrue => exact .done fun _ _ _ _ h => by cases h
    refine .bind hi₁ <| .attempt ?_
    refine Protocol.Safe.mono (Q := fun c s' => (withdrawalProtocol D C).Safe (.done c)
      (fun c s' => ∀ interactive ∈ c.interactive, Q interactive s') (fun _ _ => True) s')
      (E := fun _ _ => True) ?_ (fun _ _ _ _ h => h) fun e s₂ _ hi₂ _ => ?_
    case refine_2 =>
      exact .bind hi₂ <| (transition_fine rejection_tracks).mono
        (fun _ _ _ _ _ => .fail fun _ _ _ => trivial) fun _ _ _ _ h => h
    have start : (withdrawalProtocol D C).Safe
        (startWithdrawal (.confirm userId publicKey id xdr) userId publicKey xdr w)
        (fun c s' => ∀ interactive ∈ c.interactive, Q interactive s') (fun _ _ => True) s₁ := by
      refine .perform_bind hi₁ (fun _ _ _ => trivial) fun toml s₂ he₂ hi₂ _ => ?_
      refine .perform_bind hi₂ (fun _ _ _ => trivial) fun token s₃ he₃ hi₃ _ => ?_
      refine .perform_bind hi₃ (fun _ _ _ => trivial) fun interactive s₄ he₄ hi₄ _ => ?_
      have hlater := ((hlater.trans he₂).trans he₃).trans he₄
      have hhas := persists_trivial.evolves hlater hi₀ ⟨w, hrow, trivial⟩
      rw [hid]
      refine .map ((hq token interactive s₄ hi₄ hhas).mono (fun _ s₅ _ _ h => ?_) fun _ _ _ _ h => h)
      exact fun _ h' => Option.some.inj h' ▸ h
    exact start.closed.mono (fun _ _ _ _ h => h) fun _ _ _ _ _ => trivial

theorem withdrawalRequest_sound (i : WithdrawalRequest) :
    (withdrawalProtocol D C).Sound (withdrawalRequest D i) := by
  cases i with
  | poll        => exact reconcileWithdrawals_sound
  | webhook     => exact receiveWebhook_sound
  | confirm u p id xdr =>
    intro s hi
    refine .map (g := fun _ => ()) ?_
    refine (confirm_safe (Q := fun _ _ => True) hi fun _ _ _ _ _ => ?_).fine
    exact transition_fine confirmation_tracks

end

-- A withdrawal that has just been requested.
def newWithdrawal : WithdrawalStore := {
  withdrawals := [{ id := "withdrawal", userId := "alice", assetCode := "USDC" }]
}

theorem newWithdrawal_consistent : newWithdrawal.Consistent where
  ids     := by simp [newWithdrawal]
  tracked := fun id w hw he => by
    cases List.mem_singleton.mp (Table.mem_of_row? hw)
    exact (he rfl).elim

-- A confirmation that the anchor answers with a certain transaction.
def confirming (n : Nat) (anchorTxId : String) : List (Label WithdrawalChoice Time WithdrawalRequest) :=
  .spawn (.confirm "alice" "GALICE" "withdrawal" "xdr") :: Label.acts n [
    .plain, .toml ⟨"https://anchor/sep24", "https://anchor/auth"⟩, .token "jwt",
    .started ⟨anchorTxId, "https://anchor/tx"⟩
  ]

end Mergepay.Withdrawals
