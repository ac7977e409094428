import Mergepay.Anchors.Session
import Mergepay.Concurrency.Call

namespace Mergepay.Anchors

open Concurrency

def AnchorAction.writes : AnchorAction → Bool
  | createSession _ | update _ _ | updateFrom _ _ _ _ | claim _ _ _ _ _ | release _ _ | recoverLeases _
  | createHistory _ | createAudit _ => true
  | _                               => false

def written (log : Log AnchorAction AnchorAction.Answer Failure) : List AnchorAction :=
  log.performed.filter (·.writes)

-- What a transition writes. A change of the status is guarded, and comes with its history and its audit.
inductive TransitionWrites (params : TransitionParams) (r : AnchorSessionUpdateResult) :
    List AnchorAction → Prop
  | nothing : r.changed = false → TransitionWrites params r []
  | updated {data : SessionData} {target : Sep24TransactionStatus} : r.changed = false →
    params.extraData = some data → Sep24TransactionStatus.known params.nextStatus = some target →
    TransitionWrites params r [.update params.sessionId data]
  | changed {target : Sep24TransactionStatus} {session : AnchorSession} : r.changed = true →
    Sep24TransactionStatus.known params.nextStatus = some target →
    session.status.canTransition target = true → TransitionWrites params r
    [.updateFrom params.sessionId session.status target (params.extraData.getD {}),
      .createHistory (historyRow params target), .createAudit (statusChanged params session target)]

section

variable {params : TransitionParams} {target : Sep24TransactionStatus}

theorem findSession_leaves : (findSession params).Leaves (·.writes) fun _ as => as = [] := by
  refine .read_bind rfl fun found => ?_
  split
  case h_2 => exact .fail
  case h_1 =>
    simp only [Prog.bind_eq, Prog.throw_eq, Prog.fail_bind, Prog.pure_eq]
    split
    · exact .fail
    · exact .done rfl

theorem changeStatus_leaves (hk : Sep24TransactionStatus.known params.nextStatus = some target)
    (h : session.status.canTransition target = true) :
    (changeStatus params session target).Leaves (·.writes) (TransitionWrites params) := by
  refine .attempt_bind rfl (fun _ => .write_bind rfl fun _ => .write_bind rfl fun _ =>
    .read_bind rfl fun _ => .done (.changed rfl hk h)) fun e => ?_
  simp only [Prog.bind_eq, Prog.throw_eq, Prog.fail_bind]
  split
  · exact .fail
  · exact .done (.nothing rfl)

theorem applyAnchorSessionTransition_leaves (params : TransitionParams) :
    (applyAnchorSessionTransition params).Leaves (·.writes) (TransitionWrites params) := by
  refine findSession_leaves.nothing_bind fun session => ?_
  split
  case h_1 => exact .done (.nothing rfl)
  case h_2 target hk =>
    split
    case isTrue =>
      unfold keepStatus
      split
      case h_1         => exact .done (.nothing rfl)
      case h_2 data hd => exact .write_bind rfl fun _ => .done (.updated rfl hd hk)
    split
    case isTrue => exact .done (.nothing rfl)
    case isFalse ht =>
      split
      · exact .done (.nothing rfl)
      · exact changeStatus_leaves hk (not_not.mp ht)

end

-- The edge that an audit is about.
def AnchorMetadata.edge : AnchorMetadata → Option (Sep24TransactionStatus × Sep24TransactionStatus)
  | transition a b _ _                                        => some (a, b)
  | started _ _ | unmatched _ _ | applied _ _ _ _ | polled _ _ _ => none

namespace AnchorStore

variable (s : AnchorStore) (id : String)

def status : Option Sep24TransactionStatus :=
  (s.session id).map (·.status)

-- The changes of the status of a session that have been audited.
def changes : List (Sep24TransactionStatus × Sep24TransactionStatus) :=
  (s.audits.filter fun row => row.action = "anchor_session.status_changed" ∧ row.entityId = id).filterMap
    (·.metadata.edge)

-- The statuses that a session has entered, according to its history.
def entered : List Sep24TransactionStatus :=
  (s.history.filter fun row => row.entityType = "anchor_session" ∧ row.entityId = id).map (·.status)

end AnchorStore

section

variable {s : AnchorStore} {id : String} {params : TransitionParams} {session : AnchorSession}
  {target : Sep24TransactionStatus}

theorem effect_of_reads (a : AnchorAction) (s : AnchorStore) (h : a.writes = false) :
    anchorDatabase.effect a s = s ∧ anchorDatabase.admits a s = true := by
  cases a <;> first | exact ⟨rfl, rfl⟩ | cases h

theorem anchorEnv_eq {t : Time} {s' : AnchorStore} (h : anchorEnv t s = some s') :
    s' = { s with now := t } := by
  simp only [anchorEnv, Option.ite_none_right_eq_some, Option.some.injEq] at h
  exact h.2.symm

-- No update changes the id of a session.
theorem session_update {p : AnchorSession → Bool} {f : AnchorSession → AnchorSession}
    (hf : ∀ r, (f r).id = r.id) :
    AnchorStore.session { s with sessions := Table.update p f s.sessions } id =
      (s.session id).map fun r => if p r then f r else r :=
  Table.row?_update hf id

theorem changes_statusChanged :
    AnchorStore.changes { s with audits := s.audits ++ [statusChanged params session target] } id =
      s.changes id ++ if params.sessionId = id then [(session.status, target)] else [] := by
  simp only [AnchorStore.changes, List.filter_append, List.filterMap_append]
  split
  case isTrue h  => simp [statusChanged, AnchorMetadata.edge, h]
  case isFalse h => simp [statusChanged, h]

theorem entered_historyRow :
    AnchorStore.entered { s with history := s.history ++ [historyRow params target] } id =
      s.entered id ++ if params.sessionId = id then [target] else [] := by
  simp only [AnchorStore.entered, List.filter_append, List.map_append]
  split
  case isTrue h  => simp [historyRow, h]
  case isFalse h => simp [historyRow, h]

theorem status_set {p : AnchorSession → Bool} {data : SessionData} :
    AnchorStore.status { s with sessions := Table.update p (·.set data) s.sessions } id = s.status id := by
  simp only [AnchorStore.status]
  rw [session_update (f := (·.set data)) fun _ => rfl, Option.map_map]
  refine Option.map_congr fun r _ => ?_
  simp only [Function.comp_apply]
  split <;> rfl

-- A move that is guarded by the status of the row.
theorem status_move {data : SessionData} {current : Sep24TransactionStatus} {own : String}
    (h : s.status own = some current) : AnchorStore.status { s with
      sessions := Table.update (fun r => r.id = own ∧ r.status = current) (·.move target data) s.sessions
    } id = if own = id then some target else s.status id := by
  simp only [AnchorStore.status]
  rw [session_update (f := (·.move target data)) fun _ => rfl]
  cases hr : s.session id with
  | none =>
    split
    case isFalse => rfl
    case isTrue he =>
      subst he
      rw [AnchorStore.status, hr] at h
      cases h
  | some r =>
    have hid : r.id = id := Table.key_of_row? hr
    split
    case isTrue he =>
      subst he
      rw [AnchorStore.status, hr] at h
      simp [hid, Option.some.inj h, AnchorSession.move]
    case isFalse he => simp [hid, Ne.symm he]

end

-- A session either keeps its status, or changes it along an edge, which is recorded once in the history
-- and once in the audits.
def Advances (id : String) (s s' : AnchorStore) : Prop :=
  ∀ a, s.status id = some a → ∃ b, s'.status id = some b ∧
    (b = a ∧ s'.changes id = s.changes id ∧ s'.entered id = s.entered id ∨
      a.canTransition b = true ∧ s'.changes id = s.changes id ++ [(a, b)] ∧
        s'.entered id = s.entered id ++ [b])

section

variable {s s' : AnchorStore} {id : String} {params : TransitionParams} {as : List AnchorAction}
  {result : AnchorSessionUpdateResult}

theorem Advances.of_eq (hs : s'.sessions = s.sessions) (hh : s'.history = s.history)
    (ha : s'.audits = s.audits) : Advances id s s' := by
  intro a h
  refine ⟨a, ?_, .inl ⟨rfl, ?_, ?_⟩⟩
  · rw [AnchorStore.status, AnchorStore.session, hs]
    exact h
  · rw [AnchorStore.changes, ha, AnchorStore.changes]
  · rw [AnchorStore.entered, hh, AnchorStore.entered]

-- What a transition leaves behind in the state in which it commits.
theorem TransitionWrites.commit (h : TransitionWrites params result as)
    (ha : anchorDatabase.allowed as s = true) (hs : s' = as.foldl (fun s a => anchorEffect a s) s) :
    Advances id s s' ∧ (result.changed = true ↔ s'.status params.sessionId ≠ s.status params.sessionId) ∧
      (s'.status id ≠ s.status id → id = params.sessionId) := by
  cases h with
  | nothing hc =>
    subst hs
    exact ⟨.of_eq rfl rfl rfl, by simp [hc], fun hn => (hn rfl).elim⟩
  | @updated data _ hc =>
    have hst (own : String) : s'.status own = s.status own := hs ▸ status_set
    refine ⟨fun a h => ⟨a, (hst id).trans h, .inl ⟨rfl, hs ▸ rfl, hs ▸ rfl⟩⟩, by simp [hc, hst], ?_⟩
    exact fun hn => (hn (hst id)).elim
  | @changed target session hc _ ht =>
    simp only [Database.allowed, anchorDatabase, anchorAdmits, Bool.and_eq_true] at ha
    -- The guard still holds when the transaction commits.
    obtain ⟨row, hrow, hst⟩ := (Option.any_eq_true ..).mp ha.1
    have hcur : s.status params.sessionId = some session.status := by
      rw [AnchorStore.status, hrow, Option.map_some, of_decide_eq_true hst]
    have hst (own : String) :
        s'.status own = if params.sessionId = own then some target else s.status own :=
      hs ▸ status_move hcur
    have hch : s'.changes id = s.changes id ++
        if params.sessionId = id then [(session.status, target)] else [] :=
      hs ▸ changes_statusChanged
    have hen : s'.entered id = s.entered id ++ if params.sessionId = id then [target] else [] :=
      hs ▸ entered_historyRow
    have hne := Sep24TransactionStatus.ne_of_canTransition ht
    refine ⟨fun a h => ?_, ?_, fun hn => ?_⟩
    · by_cases he : params.sessionId = id
      case pos =>
        subst he
        cases hcur.symm.trans h
        exact ⟨target, by simp [hst], .inr ⟨ht, by simpa using hch, by simpa using hen⟩⟩
      case neg =>
        refine ⟨a, ?_, .inl ⟨rfl, ?_, ?_⟩⟩
        · simpa [hst, he] using h
        · simpa [he] using hch
        · simpa [he] using hen
    · simpa [hst, hcur, hc] using hne
    · by_contra he
      exact hn (by simp [hst, Ne.symm he])

end

end Mergepay.Anchors
