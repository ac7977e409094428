import Mergepay.Anchors.Inclusion
import Mergepay.Anchors.Writes

namespace Mergepay.Anchors

open Concurrency

-- How a transition has been processed, by what it has read.
inductive TransitionRuns (params : TransitionParams) (session : AnchorSession) :
    Log AnchorAction AnchorAction.Answer Failure → AnchorSessionUpdateResult → Prop
  | ignored : (∀ target, Sep24TransactionStatus.known params.nextStatus = some target →
      target ≠ session.status ∧ (¬session.status.canTransition target = true ∨
        params.expectedCurrentStatus.any (· ≠ session.status.name) = true)) →
    TransitionRuns params session [] ⟨session, false⟩
  | repeated : Sep24TransactionStatus.known params.nextStatus = some session.status →
    params.extraData = none → TransitionRuns params session [] ⟨session, false⟩
  | updated {data : SessionData} {row : AnchorSession} :
    Sep24TransactionStatus.known params.nextStatus = some session.status →
    params.extraData = some data →
    TransitionRuns params session [⟨.update params.sessionId data, .ok row⟩] ⟨row, false⟩
  | superseded {target : Sep24TransactionStatus} :
    Sep24TransactionStatus.known params.nextStatus = some target →
    session.status.canTransition target = true → TransitionRuns params session
      [⟨.updateFrom params.sessionId session.status target (params.extraData.getD {}),
        .error noneMatched⟩] ⟨session, false⟩
  | changed {target : Sep24TransactionStatus} {row : Option AnchorSession} :
    Sep24TransactionStatus.known params.nextStatus = some target →
    session.status.canTransition target = true → TransitionRuns params session [
        ⟨.updateFrom params.sessionId session.status target (params.extraData.getD {}), .ok ()⟩,
        ⟨.createHistory (historyRow params target), .ok ()⟩,
        ⟨.createAudit (statusChanged params session target), .ok ()⟩,
        ⟨.findSession params.sessionId, .ok row⟩
      ] ⟨row.getD { session with status := target }, true⟩

section

variable {params : TransitionParams} {session : AnchorSession} {target : Sep24TransactionStatus}
  {log : Log AnchorAction AnchorAction.Answer Failure} {v : AnchorSessionUpdateResult}

theorem findSession_done (h : (findSession params).After log (.done session)) :
    log = [⟨.findSession params.sessionId, .ok (some session)⟩] := by
  obtain ⟨l₁, l₂, found, rfl, h₁, h₂⟩ := Prog.After.bind_done h
  rw [h₁.of_perform]
  cases found with
  | none   => exact h₂.not_fail.elim
  | some r =>
    simp only [Prog.bind_eq, Prog.throw_eq, Prog.fail_bind, Prog.pure_eq] at h₂
    split at h₂
    · exact h₂.not_fail.elim
    · obtain ⟨rfl, hr⟩ := h₂.of_done
      cases hr
      rfl

theorem changeStatus_done (hk : Sep24TransactionStatus.known params.nextStatus = some target)
    (hc : session.status.canTransition target = true)
    (h : (changeStatus params session target).After log (.done v)) :
    TransitionRuns params session log v := by
  obtain ⟨l₁, l₂, r, rfl, h₁, h₂⟩ := Prog.After.bind_done h
  rcases h₁.attempt_done with ⟨u, rfl, hu⟩ | ⟨e, rfl, hu⟩
  case inl =>
    rw [hu.of_perform]
    obtain ⟨l₃, l₄, _, rfl, h₃, h₄⟩ := Prog.After.bind_done h₂
    obtain ⟨l₅, l₆, _, rfl, h₅, h₆⟩ := Prog.After.bind_done h₄
    obtain ⟨l₇, l₈, row, rfl, h₇, h₈⟩ := Prog.After.bind_done h₆
    rw [h₃.of_perform, h₅.of_perform, h₇.of_perform]
    obtain ⟨rfl, hv⟩ := h₈.of_done
    cases hv
    exact .changed hk hc
  case inr =>
    rw [hu.of_perform_fail]
    simp only [Prog.bind_eq, Prog.throw_eq, Prog.fail_bind] at h₂
    split at h₂
    case isTrue      => exact h₂.not_fail.elim
    case isFalse he =>
      obtain ⟨rfl, hv⟩ := h₂.of_done
      cases hv
      rw [not_not.mp he]
      exact .superseded hk hc

theorem applyAnchorSessionTransition_done
    (h : (applyAnchorSessionTransition params).After log (.done v)) : ∃ session rest,
    log = ⟨.findSession params.sessionId, .ok (some session)⟩ :: rest ∧
      TransitionRuns params session rest v := by
  obtain ⟨l₁, l₂, session, rfl, h₁, h₂⟩ := Prog.After.bind_done h
  refine ⟨session, l₂, by rw [findSession_done h₁]; rfl, ?_⟩
  split at h₂
  case h_1 hk =>
    obtain ⟨rfl, hv⟩ := h₂.of_done
    cases hv
    exact .ignored fun target ht => by cases hk.symm.trans ht
  case h_2 target hk =>
    split at h₂
    case isTrue he =>
      subst he
      unfold keepStatus at h₂
      split at h₂
      case h_1 hd =>
        obtain ⟨rfl, hv⟩ := h₂.of_done
        cases hv
        exact .repeated hk hd
      case h_2 data hd =>
        obtain ⟨l₁, l₃, row, rfl, h₁, h₃⟩ := Prog.After.bind_done h₂
        rw [h₁.of_perform]
        obtain ⟨rfl, hv⟩ := h₃.of_done
        cases hv
        exact .updated hk hd
    case isFalse hne =>
      split at h₂
      case isTrue hc =>
        obtain ⟨rfl, hv⟩ := h₂.of_done
        cases hv
        refine .ignored fun t ht => ?_
        cases hk.symm.trans ht
        exact ⟨hne, .inl hc⟩
      case isFalse hc =>
        split at h₂
        case isTrue hx =>
          obtain ⟨rfl, hv⟩ := h₂.of_done
          cases hv
          refine .ignored fun t ht => ?_
          cases hk.symm.trans ht
          exact ⟨hne, .inr hx⟩
        case isFalse => exact changeStatus_done hk (not_not.mp hc) h₂

end

-- What is written on behalf of a request, in the state in which it commits. The id of a transaction is
-- recorded by nothing but the completion of a session, which is in progress from then on.
inductive SessionWrites (i : SessionRequest) (s : AnchorStore) : List AnchorAction → Prop
  | nothing : SessionWrites i s []
  | created {row : AnchorSession} {audit : AnchorAudit} : row.status = .incomplete →
    row.externalTransactionId = none → SessionWrites i s [.createSession row, .createAudit audit]
  | updated {id : String} {data : SessionData} : (data.externalTransactionId ≠ none →
      i.Completes id ∧ s.status id ≠ some .incomplete) → SessionWrites i s [.update id data]
  | changed {id : String} {current target : Sep24TransactionStatus} {data : SessionData}
    {row : StatusHistory} {audit : AnchorAudit} : current.canTransition target = true →
    (data.externalTransactionId ≠ none → i.Completes id) → SessionWrites i s
      [.updateFrom id current target data, .createHistory row, .createAudit audit]
  | claimed {id worker : String} {retryCount : Nat} {now deadline : Time} :
    SessionWrites i s [.claim id retryCount worker now deadline]
  | released {id worker : String} : SessionWrites i s [.release id worker]
  | recovered {now : Time} : SessionWrites i s [.recoverLeases now]
  | audited {audit : AnchorAudit} : SessionWrites i s [.createAudit audit]

-- A transfer that is tracked has been started.
structure AnchorStore.Consistent (s : AnchorStore) : Prop where
  ids     : (s.sessions.map (·.id)).Nodup
  tracked : ∀ id r, s.session id = some r → r.externalTransactionId ≠ none → r.status ≠ .incomplete

-- What a commit may do to a session.
structure AnchorSession.Moves (i : SessionRequest) (r r' : AnchorSession) : Prop where
  status     : r'.status = r.status ∨ r.status.canTransition r'.status = true
  externalId : r'.externalTransactionId = r.externalTransactionId ∨
    i.Completes r.id ∧ r'.status ≠ .incomplete

theorem AnchorSession.Moves.of_eq {r r' : AnchorSession} (hs : r'.status = r.status)
    (he : r'.externalTransactionId = r.externalTransactionId) : r.Moves i r' :=
  ⟨.inl hs, .inl he⟩

section

variable {i : SessionRequest} {s s' : AnchorStore} {as : List AnchorAction} {id : String}
  {r r' : AnchorSession}

-- Rows that are neither added nor removed.
structure RowsMove (i : SessionRequest) (s s' : AnchorStore) : Prop where
  missing : ∀ id, s.session id = none → s'.session id = none
  found   : ∀ id r, s.session id = some r → ∃ r', s'.session id = some r' ∧ r.Moves i r'
  ids     : s'.sessions.map (·.id) = s.sessions.map (·.id)

theorem RowsMove.of_eq (hs : s'.sessions = s.sessions) : RowsMove i s s' where
  missing := fun id h => by rwa [AnchorStore.session, hs]
  found   := fun id r h => ⟨r, by rwa [AnchorStore.session, hs], .of_eq rfl rfl⟩
  ids     := by rw [hs]

theorem RowsMove.of_update {p : AnchorSession → Bool} {f : AnchorSession → AnchorSession}
    (hs : s'.sessions = Table.update p f s.sessions) (hf : ∀ r, (f r).id = r.id)
    (h : ∀ id r, s.session id = some r → p r = true → r.Moves i (f r)) : RowsMove i s s' := by
  have hrow (id : String) : s'.session id = (s.session id).map fun r => if p r then f r else r := by
    rw [AnchorStore.session, hs]
    exact Table.row?_update hf id
  refine ⟨fun id hn => ?_, fun id r hr => ⟨if p r then f r else r, ?_, ?_⟩, hs ▸ Table.map_update hf⟩
  · rw [hrow, hn, Option.map_none]
  · rw [hrow, hr, Option.map_some]
  · split
    case isTrue hp => exact h id r hr hp
    case isFalse   => exact .of_eq rfl rfl

-- A transfer that is tracked stays in progress.
theorem RowsMove.consistent (h : RowsMove i s s') (hc : s.Consistent) : s'.Consistent where
  ids     := h.ids ▸ hc.ids
  tracked := fun id r' hr' he => by
    cases hr : s.session id with
    | none   => cases (h.missing id hr).symm.trans hr'
    | some r =>
      have ⟨r'', hr'', hm⟩ := h.found id r hr
      cases hr''.symm.trans hr'
      rcases hm.externalId with hx | ⟨_, hx⟩
      case inr => exact hx
      case inl =>
        rcases hm.status with hst | hst
        case inl => exact hst ▸ hc.tracked id r hr (hx ▸ he)
        case inr =>
          rintro hi
          exact Sep24TransactionStatus.not_canTransition_incomplete _ (hi ▸ hst)

theorem SessionWrites.moves (h : SessionWrites i s as) (ha : anchorDatabase.allowed as s = true)
    (hs : s' = as.foldl (fun s a => anchorEffect a s) s) :
    (∀ id r, s.session id = some r → ∃ r', s'.session id = some r' ∧ r.Moves i r') ∧
      (s.Consistent → s'.Consistent) := by
  subst hs
  have moved {s' : AnchorStore} (h : RowsMove i s s') := And.intro h.found h.consistent
  cases h with
  | nothing   => exact moved (.of_eq rfl)
  | audited   => exact moved (.of_eq rfl)
  | claimed   => exact moved (.of_update rfl (fun _ => rfl) fun _ _ _ _ => .of_eq rfl rfl)
  | released  => exact moved (.of_update rfl (fun _ => rfl) fun _ _ _ _ => .of_eq rfl rfl)
  | recovered => exact moved (.of_update rfl (fun _ => rfl) fun _ _ _ _ => .of_eq rfl rfl)
  | @updated own data hd =>
    refine moved (.of_update rfl (fun _ => rfl) fun id r hr hp => ⟨.inl rfl, ?_⟩)
    have hid : r.id = id := Table.key_of_row? hr
    simp only [AnchorSession.set]
    cases he : data.externalTransactionId with
    | none   => exact .inl rfl
    | some x =>
      obtain ⟨hc, hn⟩ := hd (by simp [he])
      have hown : r.id = own := of_decide_eq_true hp
      refine .inr ⟨hown ▸ hc, fun hi => hn ?_⟩
      rw [AnchorStore.status, ← hown, hid, hr, Option.map_some, hi]
  | @changed own current target data row audit ht hd =>
    refine moved (.of_update rfl (fun _ => rfl) fun id r hr hp => ?_)
    obtain ⟨hown, hcur⟩ : r.id = own ∧ r.status = current := of_decide_eq_true hp
    refine ⟨.inr (hcur ▸ ht), ?_⟩
    simp only [AnchorSession.move, AnchorSession.set]
    cases he : data.externalTransactionId with
    | none   => exact .inl rfl
    | some x =>
      refine .inr ⟨hown ▸ hd (by simp [he]), fun hi => ?_⟩
      exact Sep24TransactionStatus.not_canTransition_incomplete _ (hi ▸ ht)
  | @created row audit hst hx =>
    simp only [Database.allowed, anchorDatabase, anchorAdmits, Bool.and_eq_true] at ha
    have hnew : row.id ∉ s.sessions.map (·.id) := by
      intro hm
      obtain ⟨r, hr, he⟩ := List.mem_map.mp hm
      obtain ⟨r', hr'⟩ := Table.row?_isSome_of_mem (k := (·.id)) hr
      have hn := Option.isNone_iff_eq_none.mp ha.1
      rw [AnchorStore.session, ← he, hr'] at hn
      cases hn
    have hrow (id : String) : AnchorStore.session { s with sessions := s.sessions ++ [row] } id =
        if id = row.id then some row else s.session id :=
      Table.row?_append hnew id
    refine ⟨fun id r hr => ⟨r, ?_, .of_eq rfl rfl⟩, fun hc => ⟨?_, fun id r hr he => ?_⟩⟩
    · have hne : id ≠ row.id := by
        rintro rfl
        exact hnew (List.mem_map.mpr ⟨r, Table.mem_of_row? hr, Table.key_of_row? hr⟩)
      exact (hrow id).trans (by rw [if_neg hne, hr])
    · simp only [List.foldl, anchorEffect, List.map_append, List.map_cons, List.map_nil]
      exact List.nodup_append.mpr ⟨hc.ids, List.nodup_singleton _, by simpa using hnew⟩
    · have hr := (hrow id).symm.trans hr
      split at hr
      case isTrue =>
        cases hr
        exact (he hx).elim
      case isFalse => exact hc.tracked id r hr he

end

-- The server without its programs, which is what they share.
abbrev sessionSystem :=
  anchorDatabase.server anchorEnv fun _ : SessionRequest => .done ()

def sessionDue : SessionAct → AnchorStore → Prop
  | .act _ _ _, _    => True
  | .commit i log, s => SessionWrites i s (written log)

theorem view_moves {i : SessionRequest} {log : Log AnchorAction AnchorAction.Answer Failure} {s : AnchorStore}
    (h : sessionDue (.commit i log) s) (ha : anchorDatabase.admitted log s = true) :
    (∀ id r, s.session id = some r →
      ∃ r', (anchorDatabase.view log s).session id = some r' ∧ r.Moves i r') ∧
      (s.Consistent → (anchorDatabase.view log s).Consistent) := by
  rw [Database.admitted_filter effect_of_reads] at ha
  exact SessionWrites.moves h ha (Database.view_filter effect_of_reads)

-- The commits of a run are required to meet a condition. In return, all of them write as expected.
def sessionProtocol (C : SessionAct → AnchorStore → Prop) : Protocol sessionSystem :=
  Database.protocol C sessionDue AnchorStore.Consistent (fun _ _ _ hi _ hd ha => (view_moves hd ha).2 hi)
    fun _ _ _ hi he => (RowsMove.of_eq (i := .recover) (anchorEnv_eq he ▸ rfl)).consistent hi

-- There is a certain session that satisfies a condition.
def AnchorStore.Has (s : AnchorStore) (id : String) (K : AnchorSession → Prop) : Prop :=
  ∃ r, s.session id = some r ∧ K r

-- The condition is not affected by any commit that may happen.
def Persists (C : SessionAct → AnchorStore → Prop) (id : String) (K : AnchorSession → Prop) : Prop :=
  ∀ i log s r r', s.Consistent → C (.commit i log) s → s.session id = some r → r.Moves i r' → K r → K r'

section

variable {C : SessionAct → AnchorStore → Prop} {i : SessionRequest} {id : String} {s s' : AnchorStore}
  {K : AnchorSession → Prop} {log : Log AnchorAction AnchorAction.Answer Failure}

theorem Persists.view (hk : Persists C id K) (hi : s.Consistent)
    (hc : (sessionProtocol C).cond (.commit i log) s) (ha : anchorDatabase.admitted log s = true)
    (h : s.Has id K) : (anchorDatabase.view log s).Has id K := by
  have ⟨r, hr, hkr⟩ := h
  have ⟨r', hr', hm⟩ := (view_moves hc.2 ha).1 id r hr
  exact ⟨r', hr', hk i log s r r' hi hc.1 hr hm hkr⟩

theorem Persists.evolves (hk : Persists C id K) (he : sessionSystem.Evolves (sessionProtocol C).cond s s')
    (hi : s.Consistent) (h : s.Has id K) : s'.Has id K := by
  induction he with
  | refl => exact h
  | env he hx hh =>
    have ⟨r, hr, hkr⟩ := hh hi h
    exact ⟨r, by rw [anchorEnv_eq hx]; exact hr, hkr⟩
  | @act a x s₁ s₂ s₃ r he hc hx hh =>
    have hi₂ := (sessionProtocol C).inv_of_evolves he hi
    cases a with
    | act j log a => exact (Database.exec_act hx).1 ▸ hh hi h
    | commit j log =>
      have ⟨ha, hs⟩ := Database.exec_commit hx
      rcases hs with ⟨_, hs⟩ | ⟨_, _, hs, _⟩
      case inl => exact hs ▸ hk.view hi₂ hc ha (hh hi h)
      case inr => exact hs ▸ hh hi h

-- A session that has been started never becomes incomplete again.
theorem persists_started : Persists C id (·.status ≠ .incomplete) := by
  intro i log s r r' _ _ _ hm hr
  rcases hm.status with hs | hs
  case inl => exact hs ▸ hr
  case inr => exact fun hi => Sep24TransactionStatus.not_canTransition_incomplete _ (hi ▸ hs)

-- Nothing that has ended is in progress again.
theorem persists_terminal : Persists C id (·.status.isTerminal = true) := by
  intro i log s r r' _ _ _ hm hr
  rcases hm.status with hs | hs
  case inl => exact hs ▸ hr
  case inr =>
    have ⟨_, ht⟩ := Sep24TransactionStatus.canTransition_of_terminal hr hs
    exact ht ▸ rfl

-- An update that has not found the status it is guarded by.
theorem not_status_of_noneMatched {current target : Sep24TransactionStatus} {data : SessionData}
    {x : AnchorChoice} {r : AnchorSession} (hr : s.session id = some r)
    (h : anchorAnswer (.updateFrom id current target data) x s = some (.error noneMatched)) :
    r.status ≠ current := by
  rintro rfl
  cases x <;> simp [anchorAnswer, hr, World.connectionClosed, noneMatched] at h

-- The row that a transition is about has been read since the transition began.
theorem read_session {s₀ : AnchorStore} {session : AnchorSession}
    (ht : Database.Traced (sessionProtocol C) i s₀ s
      (⟨.findSession id, .ok (some session)⟩ :: log)) :
    ∃ s₁, Database.Between (sessionProtocol C) s₀ s s₁ ∧ s₁.session id = some session := by
  have ⟨x, s₁, hb, _, _, hr⟩ := ht [] _ log rfl
  refine ⟨s₁, hb, ?_⟩
  have hr : some (.ok (s₁.session id)) = some (.ok (some session) : Except Failure (Option AnchorSession)) := by
    cases x <;> first | exact hr | cases hr
  exact Except.ok.inj (Option.some.inj hr)

theorem found_session {session : AnchorSession} {x : AnchorChoice}
    (h : sessionSystem.exec (.act i [] (.findSession id)) x s = some (.ok (some session), s')) :
    s.session id = some session := by
  have h : anchorDatabase.exec (.act i [] (.findSession id)) x s = some (.ok (some session), s') := h
  have ⟨_, _, hr⟩ := Database.exec_act h
  cases x <;> simp [anchorDatabase, anchorAnswer, Database.view] at hr
  exact hr

-- The id of a transaction is recorded by the completion of a session only, along with its first state.
def TransitionParams.Tracks (params : TransitionParams) (i : SessionRequest) : Prop :=
  ∀ data ∈ params.extraData, data.externalTransactionId ≠ none →
    i.Completes params.sessionId ∧ params.nextStatus = "pending_user_transfer_start"

variable {params : TransitionParams} {v : AnchorSessionUpdateResult} {s₀ : AnchorStore}

theorem transition_due (hp : params.Tracks i)
    (h : (applyAnchorSessionTransition params).After log (.done v))
    (ht : Database.Traced (sessionProtocol C) i s₀ s log) : SessionWrites i s (written log) := by
  obtain ⟨session, rest, rfl, hr⟩ := applyAnchorSessionTransition_done h
  cases hr with
  | ignored | repeated | superseded => exact .nothing
  | @updated data row hk hd =>
    refine .updated fun he => ?_
    have ⟨hc, hn⟩ := hp data hd he
    have ⟨s₁, hb, hs⟩ := read_session ht
    have hst : session.status = .pendingUserTransferStart :=
      Option.some.inj (hk.symm.trans (hn ▸ Sep24TransactionStatus.known_name .pendingUserTransferStart))
    have hst : session.status ≠ .incomplete := hst ▸ by decide
    have ⟨r, hr, hst⟩ := persists_started.evolves hb.after hb.inv ⟨session, hs, hst⟩
    refine ⟨hc, fun hi => hst ?_⟩
    rw [AnchorStore.status, hr] at hi
    exact Option.some.inj hi
  | @changed target row hk hc =>
    refine .changed hc fun he => ?_
    cases hd : params.extraData with
    | none      => exact (he (by rw [hd]; rfl)).elim
    | some data => exact (hp data hd (by rwa [hd] at he)).1

theorem transition_safe {Q : AnchorSessionUpdateResult → AnchorStore → Prop} (hp : params.Tracks i)
    (hq : ∀ log v s s', (applyAnchorSessionTransition params).After log (.done v) →
      Database.Traced (sessionProtocol C) i s₀ s log → s.Consistent →
      (sessionProtocol C).cond (.commit i log) s → anchorDatabase.admitted log s = true →
      sessionSystem.Evolves (sessionProtocol C).cond (anchorDatabase.view log s) s' → Q v s') :
    (sessionProtocol C).Safe (transition i params) Q (fun _ _ => True) s₀ :=
  Database.Transacts.safe {
    act  := fun _ _ _ => trivial
    due  := fun ha ht _ _ => transition_due hp ha ht
    done := fun ha ht hi _ hc had he _ => hq _ _ _ _ ha ht hi hc had he
    fail := fun _ _ _ _ => trivial
    lost := fun _ _ _ => trivial
  }

-- What is left by a transition that has changed the status.
theorem view_changed {session : AnchorSession} {target : Sep24TransactionStatus} {rest}
    (hr : TransitionRuns params session rest v) (hv : v.changed = true)
    (hk : Sep24TransactionStatus.known params.nextStatus = some target)
    (ha : anchorDatabase.admitted (⟨.findSession params.sessionId, .ok (some session)⟩ :: rest) s = true) :
    ∃ r, s.session params.sessionId = some r ∧ r.status = session.status ∧
      (anchorDatabase.view (⟨.findSession params.sessionId, .ok (some session)⟩ :: rest) s).session
        params.sessionId = some (r.move target (params.extraData.getD {})) := by
  cases hr with
  | ignored | repeated | updated | superseded => cases hv
  | changed hk' =>
    cases hk.symm.trans hk'
    rw [Database.admitted_filter effect_of_reads] at ha
    rw [Database.view_filter effect_of_reads]
    have ⟨ha, _⟩ := (Bool.and_eq_true ..).mp ha
    have ⟨r, hr, hst⟩ := (Option.any_eq_true ..).mp ha
    have hid : r.id = params.sessionId := Table.key_of_row? hr
    refine ⟨r, hr, of_decide_eq_true hst, ?_⟩
    refine (session_update (f := (·.move target (params.extraData.getD {}))) fun _ => rfl).trans ?_
    simp [hr, hid, of_decide_eq_true hst]

theorem transition_fine (hp : params.Tracks i) : (sessionProtocol C).Fine (transition i params) s₀ :=
  transition_safe hp fun _ _ _ _ _ _ _ _ _ _ => trivial

end

-- All commits of a program write as expected, whatever the state.
abbrev Orderly (p : AnchorProg α) : Prop :=
  Within (fun i log => ∀ s, SessionWrites i s (written log)) p

theorem externalId_of_anonymous {data : SessionData} (h : data.anonymous = true) :
    data.externalTransactionId = none :=
  (of_decide_eq_true h).1

theorem orderly (i : SessionRequest) : Inclusive (fun i log => ∀ s, SessionWrites i s (written log)) i where
  routine {a v} ha s := by
    cases a with
    | update id data => exact .updated fun hn => (hn (externalId_of_anonymous ha)).elim
    | claim          => exact .claimed
    | release        => exact .released
    | recoverLeases  => exact .recovered
    | createAudit    => exact .audited
    | _              => cases ha
  creation hd s := by
    obtain ⟨l₁, l₂, id, rfl, h₁, h₂⟩ := Prog.After.bind_done hd
    obtain ⟨l₃, l₄, _, rfl, h₃, h₄⟩ := Prog.After.bind_done h₂
    obtain ⟨l₅, l₆, _, rfl, h₅, h₆⟩ := Prog.After.bind_done h₄
    rw [h₁.of_perform, h₃.of_perform, h₅.of_perform, h₆.of_done.1]
    exact .created rfl rfl
  change {params log v} hp hd s := by
    obtain ⟨session, rest, rfl, hr⟩ := applyAnchorSessionTransition_done hd
    cases hr with
    | ignored | repeated | superseded => exact .nothing
    | updated _ hx => exact .updated fun hn => (hn (externalId_of_anonymous (hp _ hx))).elim
    | changed _ hc =>
      refine .changed hc fun hn => (hn ?_).elim
      cases hd : params.extraData with
      | none      => rfl
      | some data => exact externalId_of_anonymous (hp data hd)

section

variable {C : SessionAct → AnchorStore → Prop} {D : AnchorDeps} {s : AnchorStore}

theorem Orderly.fine {p : AnchorProg α} (h : Orderly p) (s : AnchorStore) : (sessionProtocol C).Fine p s :=
  .of_avoids (fun a s _ hn => match a with
    | .act _ _ _    => trivial
    | .commit _ _   => not_not.mp hn s) h s

theorem completionTransition_tracks {userId publicKey id xdr token : String}
    {interactive : Withdrawals.Interactive} : (completionTransition userId id token interactive).Tracks
      (.complete userId publicKey id xdr) := by
  rintro data hd -
  exact ⟨⟨userId, publicKey, xdr, rfl⟩, rfl⟩

-- What may be expected of every session.
theorem persists_trivial {id : String} : Persists C id fun _ => True :=
  fun _ _ _ _ _ _ _ _ _ _ => trivial

-- A completion ends with what its transition ends with, which is about a session that exists.
theorem complete_safe {userId publicKey id xdr : String} {Q : Completion → AnchorStore → Prop}
    (hi : s.Consistent) (hq : ∀ token interactive s, s.Consistent → s.Has id (fun _ => True) →
      (sessionProtocol C).Safe
      (transition (.complete userId publicKey id xdr) (completionTransition userId id token interactive))
      (fun result => Q ⟨interactive, result.session⟩) (fun _ _ => True) s) :
    (sessionProtocol C).Safe
      (complete (.complete userId publicKey id xdr) userId publicKey id xdr) Q (fun _ _ => True) s := by
  refine .perform_bind hi (fun _ _ _ => trivial) fun found s₁ _ hi₁ hfound => ?_
  split
  case h_2 => exact .fail fun _ _ _ => trivial
  case h_1 session =>
    have ⟨s₀, hi₀, hrow, hlater⟩ := hfound.before (F := fun s => s.session id = some session)
      fun _ _ _ _ hx => found_session hx
    simp only [Prog.bind_eq, Prog.throw_eq, Prog.fail_bind, Prog.pure_eq]
    split
    case isTrue => exact .fail fun _ _ _ => trivial
    case isFalse =>
      refine .perform_bind hi₁ (fun _ _ _ => trivial) fun toml s₂ he₂ hi₂ _ => ?_
      refine .perform_bind hi₂ (fun _ _ _ => trivial) fun token s₃ he₃ hi₃ _ => ?_
      refine .perform_bind hi₃ (fun _ _ _ => trivial) fun interactive s₄ he₄ hi₄ _ => ?_
      have hlater := ((hlater.trans he₂).trans he₃).trans he₄
      exact .map (hq token interactive s₄ hi₄ <|
        persists_trivial.evolves hlater hi₀ ⟨session, hrow, trivial⟩)

end

end Mergepay.Anchors
