import Mergepay.Anchors.Alone
import Mergepay.Anchors.Tokens

namespace Mergepay.Anchors

open Concurrency Money Withdrawals

-- The ways in which the status of a transfer is learned.
inductive Channel
  | poll
  | callback (service : CallbackService)
  deriving DecidableEq

structure StatusReport where
  channel   : Channel
  rawStatus : String
  message   : Option String := none
  deriving DecidableEq

section

variable (D : AnchorDeps) (transferServer id : String) (s : AnchorStore)

def receive (service : CallbackService) (callback : Sep24Callback) : Option AnchorStore := do
  let (_, s') ← Prog.alone anchorDatabase.exec
    (Database.Step.choose (answering (.transaction ⟨callback.rawStatus, callback.message⟩) 0) .plain)
    (applySep24Callback D (.callback service callback) service callback) s
  return s'

def observe (job : AnchorSession) (tx : Sep24AnchorTransaction) : Option AnchorStore := do
  let (_, s') ← Prog.alone anchorDatabase.exec
    (Database.Step.choose (answering (.transaction tx) 0) .plain)
    (reconcileSingleAnchor D (.poll "worker") transferServer job) s
  return s'

-- What is left by a report about a session. A poll is made with a fresh copy of the row. No callback is about a
-- session without a transaction.
def deliver (report : StatusReport) : Option AnchorStore := do
  let session ← s.session id
  match report.channel with
  | .poll             => observe D transferServer s session ⟨report.rawStatus, report.message⟩
  | .callback service => match session.externalTransactionId with
    | none            => return s
    | some externalId => receive D s service ⟨externalId, report.rawStatus, report.message⟩

-- The status of a session after one report after another.
def statusAfter (reports : List StatusReport) : Option Sep24TransactionStatus := do
  let s' ← reports.foldlM (deliver D transferServer id) s
  s'.status id

end

-- What a raw status stands for, if anything.
def meaning (rawStatus : String) : Option Sep24TransactionStatus :=
  (resolveSep24Status rawStatus).bind Sep24TransactionStatus.known

-- The outcome does not depend on the channels. Nothing changes because of a status that stands for nothing.
structure Uniform (D : AnchorDeps) (transferServer id : String) (s : AnchorStore) (raws : List String) : Prop where
  same : ∀ rs rs' : List StatusReport, rs.map (·.rawStatus) = raws → rs'.map (·.rawStatus) = raws →
    statusAfter D transferServer id s rs = statusAfter D transferServer id s rs'
  kept : ∀ (rs : List StatusReport) r, (rs ++ [r]).map (·.rawStatus) <+: raws → meaning r.rawStatus = none →
    statusAfter D transferServer id s (rs ++ [r]) = statusAfter D transferServer id s rs

-- The failures that callbacks do not tell from an error.
def collapsed : List Sep24TransactionStatus :=
  [.expired, .noMarket, .tooSmall, .tooLarge]

-- No report comes before the end of the transfer that stands for nothing, unless the anchor has been reported to
-- be busy last. The end is not one of the failures that are taken for errors by callbacks.
def Unambiguous (status : Sep24TransactionStatus) : List String → Prop
  | []          => True
  | raw :: raws => match meaning raw with
    | none        => status = .pendingAnchor ∧ Unambiguous status raws
    | some target =>
      if target.isTerminal then target ∉ collapsed
      else if target ∈ [.incomplete, .pendingUserTransferStart] then Unambiguous status raws
      else Unambiguous target raws

-- What the channels make of a status.

def reached (status target : Sep24TransactionStatus) : Sep24TransactionStatus :=
  if status.canTransition target then target else status

def reading (rawStatus : String) : Sep24TransactionStatus :=
  match meaning rawStatus with
  | none        => .pendingAnchor
  | some target => if target ∈ collapsed then .error else target

def StatusReport.next (report : StatusReport) (status : Sep24TransactionStatus) : Sep24TransactionStatus :=
  match report.channel with
  | .poll       => (meaning report.rawStatus).elim status (reached status)
  | .callback _ => reached status (reading report.rawStatus)

theorem known_toSessionStatus (raw : String) :
    Sep24TransactionStatus.known (toSessionStatus raw) = some (reading raw) := by
  simp only [toSessionStatus, mapAnchorStatus, reading, meaning, resolveSep24Status]
  split
  case isTrue hm =>
    have ⟨status, hk⟩ := mem_sep24TransactionStatuses.mp hm
    rw [Option.bind_some, hk, ← Sep24TransactionStatus.name_of_known hk]
    cases status <;> decide
  case isFalse hm =>
    rw [if_neg (by decide)]
    unfold legacyStatus
    split_ifs <;> decide

def finalStatus (status : Sep24TransactionStatus) (reports : List StatusReport) : Sep24TransactionStatus :=
  reports.foldl (fun status report => report.next status) status

-- The same about statuses.
structure Agreeing (status : Sep24TransactionStatus) (raws : List String) : Prop where
  same : ∀ rs rs' : List StatusReport, rs.map (·.rawStatus) = raws → rs'.map (·.rawStatus) = raws →
    finalStatus status rs = finalStatus status rs'
  kept : ∀ (rs : List StatusReport) r, (rs ++ [r]).map (·.rawStatus) <+: raws → meaning r.rawStatus = none →
    finalStatus status (rs ++ [r]) = finalStatus status rs

section

variable {status status' target : Sep24TransactionStatus} {raw : String} {raws : List String}

theorem Agreeing.nil : Agreeing status [] where
  same := fun rs rs' h h' => by rw [List.map_eq_nil_iff.mp h, List.map_eq_nil_iff.mp h']
  kept := fun rs r h _ => by simp at h

-- All channels agree on the first report.
theorem agreeing_cons (h : ∀ r : StatusReport, r.rawStatus = raw → r.next status = status')
    (hk : meaning raw = none → status' = status) : Agreeing status (raw :: raws) ↔ Agreeing status' raws := by
  constructor
  case mp =>
    intro ha
    refine ⟨fun rs rs' hr hr' => ?_, fun rs r hr hm => ?_⟩
    · have := ha.same (⟨.poll, raw, none⟩ :: rs) (⟨.poll, raw, none⟩ :: rs') (by simp [hr]) (by simp [hr'])
      simpa [finalStatus, h] using this
    · have := ha.kept (⟨.poll, raw, none⟩ :: rs) r (by simpa using hr) hm
      simpa [finalStatus, h] using this
  case mpr =>
    intro ha
    refine ⟨fun rs rs' hr hr' => ?_, fun rs r hr hm => ?_⟩
    · obtain ⟨r, rs, rfl, hraw, hrs⟩ := List.map_eq_cons_iff.mp hr
      obtain ⟨r', rs', rfl, hraw', hrs'⟩ := List.map_eq_cons_iff.mp hr'
      simp only [finalStatus, List.foldl_cons, h r hraw, h r' hraw']
      exact ha.same rs rs' hrs hrs'
    · cases rs with
      | nil =>
        have hraw : r.rawStatus = raw := by simpa using hr
        simp only [finalStatus, List.nil_append, List.foldl_cons, List.foldl_nil, h r hraw]
        exact hk (hraw ▸ hm)
      | cons r' rs =>
        have ⟨hraw, hr⟩ := List.cons_prefix_cons.mp hr
        simp only [finalStatus, List.cons_append, List.foldl_cons, h r' hraw]
        exact ha.kept rs r hr hm

theorem next_eq (h : reading raw = target) (hm : meaning raw = some target) (r : StatusReport)
    (hr : r.rawStatus = raw) : r.next status = reached status target := by
  unfold StatusReport.next
  split
  case h_1 => rw [hr, hm, Option.elim_some]
  case h_2 => rw [hr, h]

-- A status that means nothing changes nothing, unless it is taken for `pending_anchor`.
theorem next_of_meaningless (hm : meaning raw = none) (r : StatusReport) (hr : r.rawStatus = raw)
    (hs : reached status .pendingAnchor = status) : r.next status = status := by
  unfold StatusReport.next
  split
  case h_1 => rw [hr, hm, Option.elim_none]
  case h_2 => rwa [hr, reading, hm]

theorem reading_of_not_collapsed (hm : meaning raw = some target) (hc : target ∉ collapsed) :
    reading raw = target := by
  simp only [reading, hm, if_neg hc]

theorem reached_of_terminal (ht : status.isTerminal = true) :
    reached status target = if status = .error ∧ target = .refunded then .refunded else status := by
  revert ht
  cases status <;> cases target <;> decide

-- After the end of a transfer, nothing but a refund is recorded, whatever the channel.
theorem next_of_terminal (ht : status.isTerminal = true) (r : StatusReport) :
    r.next status = if status = .error ∧ meaning r.rawStatus = some .refunded then .refunded else status := by
  unfold StatusReport.next reading
  split
  case h_1 =>
    cases meaning r.rawStatus with
    | none        => simp
    | some target => simp [reached_of_terminal ht]
  case h_2 =>
    rw [reached_of_terminal ht]
    cases hm : meaning r.rawStatus with
    | none        => simp
    | some target =>
      simp only
      split
      case isTrue hc  => cases target <;> simp_all [collapsed]
      case isFalse hc => simp

theorem terminal_next (ht : status.isTerminal = true) (r : StatusReport) :
    (r.next status).isTerminal = true := by
  rw [next_of_terminal ht]
  split
  · rfl
  · exact ht

-- Once a transfer has ended, all channels agree.
theorem agreeing_of_terminal (ht : status.isTerminal = true) : Agreeing status raws := by
  induction raws generalizing status with
  | nil => exact .nil
  | cons raw raws hi =>
    have hnext (r : StatusReport) (hr : r.rawStatus = raw) :
        r.next status = if status = .error ∧ meaning raw = some .refunded then .refunded else status :=
      hr ▸ next_of_terminal ht r
    refine (agreeing_cons hnext fun hm => by simp [hm]).mpr (hi ?_)
    exact hnext ⟨.poll, raw, none⟩ rfl ▸ terminal_next ht _

-- After an end that callbacks take for an error, nothing happens any more.
theorem finalStatus_of_collapsed (hc : status ∈ collapsed) (rs : List StatusReport) :
    finalStatus status rs = status := by
  have ht : status.isTerminal = true ∧ status ≠ .error := by
    revert hc
    cases status <;> decide
  induction rs with
  | nil => rfl
  | cons r rs hi =>
    rw [finalStatus, List.foldl_cons, next_of_terminal ht.1, if_neg fun h => ht.2 h.1]
    exact hi

-- An error stays one, apart from refunds.
theorem finalStatus_of_error (rs : List StatusReport) :
    finalStatus .error rs = .error ∨ finalStatus .error rs = .refunded := by
  have refunded (rs : List StatusReport) : finalStatus .refunded rs = .refunded := by
    induction rs with
    | nil => rfl
    | cons r rs hi =>
      rw [finalStatus, List.foldl_cons, next_of_terminal rfl]
      exact hi
  induction rs with
  | nil => exact .inl rfl
  | cons r rs hi =>
    rw [finalStatus, List.foldl_cons, next_of_terminal rfl]
    split
    · exact .inr (refunded rs)
    · exact hi

-- Polls tell such an end from an error.
theorem not_agreeing_of_collapsed (hi : status ≠ .incomplete) (ht : status.isTerminal = false)
    (hm : meaning raw = some target) (hc : target ∈ collapsed) : ¬Agreeing status (raw :: raws) := by
  intro ha
  have hterm : target.isTerminal = true := by
    revert hc
    cases target <;> decide
  have polled (raws : List String) : (raws.map fun raw => (⟨.poll, raw, none⟩ : StatusReport)).map (·.rawStatus) =
      raws := by
    simp [Function.comp_def]
  have h := ha.same (⟨.poll, raw, none⟩ :: raws.map fun raw => ⟨.poll, raw, none⟩)
    (⟨.callback .token, raw, none⟩ :: raws.map fun raw => ⟨.poll, raw, none⟩)
    (congrArg _ (polled raws)) (congrArg _ (polled raws))
  have hpoll : StatusReport.next ⟨.poll, raw, none⟩ status = target := by
    simp [StatusReport.next, hm, reached, Sep24TransactionStatus.canTransition_terminal hi ht hterm]
  have hcallback : StatusReport.next ⟨.callback .token, raw, none⟩ status = .error := by
    simp [StatusReport.next, reading, hm, hc, reached, (Sep24TransactionStatus.canTransition_terminal hi ht rfl :
      status.canTransition .error = true)]
  simp only [finalStatus, List.foldl_cons, hpoll, hcallback] at h
  have hl := finalStatus_of_collapsed hc (raws.map fun raw => ⟨.poll, raw, none⟩)
  rw [finalStatus] at hl
  rw [hl] at h
  rcases finalStatus_of_error (raws.map fun raw => ⟨.poll, raw, none⟩) with he | he
  all_goals
    rw [finalStatus, ← h] at he
    subst he
    revert hc
    decide

-- What a report makes of a transfer that is in progress.
theorem reached_of_pending (hi : status ≠ .incomplete) (ht : status.isTerminal = false)
    (hp : target.isTerminal = false) : reached status target =
      if target ∈ [.incomplete, .pendingUserTransferStart] then status else target := by
  revert hi ht hp
  cases status <;> cases target <;> decide

-- The channels agree if and only if the reports are unambiguous.
theorem agreeing_iff (hi : status ≠ .incomplete) (ht : status.isTerminal = false) :
    Agreeing status raws ↔ Unambiguous status raws := by
  induction raws generalizing status with
  | nil => exact iff_of_true .nil trivial
  | cons raw raws ih =>
    unfold Unambiguous
    cases hm : meaning raw with
    | none =>
      simp only
      by_cases hp : status = .pendingAnchor
      case pos =>
        subst hp
        rw [agreeing_cons (next_of_meaningless hm · · rfl) fun _ => rfl, ih hi ht]
        simp
      case neg =>
        refine iff_of_false (fun ha => hp ?_) fun h => hp h.1
        have hk := ha.kept [] ⟨.callback .token, raw, none⟩ (by simp) hm
        have hr : reached status .pendingAnchor = .pendingAnchor := reached_of_pending hi ht rfl
        simpa [finalStatus, StatusReport.next, reading, hm, hr] using hk.symm
    | some target =>
      simp only
      by_cases hterm : target.isTerminal = true
      case pos =>
        rw [if_pos hterm]
        by_cases hc : target ∈ collapsed
        case pos => exact iff_of_false (not_agreeing_of_collapsed hi ht hm hc) (not_not.mpr hc)
        case neg =>
          refine iff_of_true ?_ hc
          rw [agreeing_cons (next_eq (reading_of_not_collapsed hm hc) hm) fun h => by cases hm.symm.trans h]
          rw [reached, if_pos (Sep24TransactionStatus.canTransition_terminal hi ht hterm)]
          exact agreeing_of_terminal hterm
      case neg =>
        have hterm : target.isTerminal = false := eq_false_of_ne_true hterm
        have hc : target ∉ collapsed := by
          revert hterm
          cases target <;> decide
        rw [if_neg (by simp [hterm]), agreeing_cons (next_eq (reading_of_not_collapsed hm hc) hm) fun h =>
          (by cases hm.symm.trans h), reached_of_pending hi ht hterm]
        split
        case isTrue      => exact ih hi ht
        case isFalse hne => exact ih (fun he => hne (by simp [he])) hterm

end

-- What becomes of the sessions that a callback is about.
section

variable {D : AnchorDeps} {i : SessionRequest} {fetched : Sep24Fetch} {delayMs : Nat} {s s' : AnchorStore}
  {callback : Sep24Callback}

def AnchorDeps.called (D : AnchorDeps) (callback : Sep24Callback) (row : AnchorSession) : AnchorSession :=
  (D.callbackTransition callback row.id).result row

-- Some sessions are rewritten.
structure Called (D : AnchorDeps) (callback : Sep24Callback) (ids : List String) (s s' : AnchorStore) : Prop where
  row : ∀ id, s'.session id = (s.session id).map fun row => if id ∈ ids then D.called callback row else row
  ids : s'.sessions.map (·.id) = s.sessions.map (·.id)

theorem Called.nil (hs : s'.sessions = s.sessions) : Called D callback [] s s' where
  row := fun id => by
    rw [AnchorStore.session, hs]
    simp [AnchorStore.session]
  ids := by rw [hs]

theorem applyToSessions_returns {sessions : List AnchorSession} {updated : Nat}
    (hrows : ∀ session ∈ sessions, (s.session session.id).isSome = true)
    (hn : (sessions.map (·.id)).Nodup) :
    AnchorProg.Returns (applyToSessions D i callback updated sessions) fetched delayMs
      (fun _ => Called D callback (sessions.map (·.id)) s) s := by
  induction sessions generalizing s updated with
  | nil => exact .done (.nil rfl)
  | cons hd tl hi =>
    have ⟨hhd, htl⟩ := List.forall_mem_cons.mp hrows
    have ⟨hne, hn⟩ := List.nodup_cons.mp hn
    have ⟨row, hrow⟩ := Option.isSome_iff_exists.mp hhd
    refine .bind <| (transition_returns hrow rfl).mono fun result s₁ h₁ => ?_
    have h₁ : Rewrites hd.id (D.callbackTransition callback hd.id).result s s₁ := h₁
    have htl₁ (session) (hm : session ∈ tl) : (s₁.session session.id).isSome = true := by
      rw [h₁.others _ fun he => hne (List.mem_map.mpr ⟨session, hm, he⟩)]
      exact htl session hm
    refine (hi htl₁ hn).mono fun _ s₂ h₂ => ⟨fun id => ?_, h₂.ids.trans h₁.ids⟩
    rw [h₂.row]
    by_cases he : id = hd.id
    case pos =>
      subst he
      rw [h₁.own, Option.map_map]
      cases hr : s.session hd.id with
      | none   => rfl
      | some r =>
        have hid : r.id = hd.id := Table.key_of_row? hr
        simp [hne, AnchorDeps.called, hid, AnchorDeps.callbackTransition]
    case neg =>
      rw [h₁.others id he]
      simp [he]

-- All sessions with the transaction of a callback are rewritten.
theorem applySep24Callback_returns {service : CallbackService} (hn : (s.sessions.map (·.id)).Nodup) :
    AnchorProg.Returns (applySep24Callback D i service callback) fetched delayMs
      (fun _ s' => s'.sessions.map (·.id) = s.sessions.map (·.id) ∧ ∀ id row, s.session id = some row →
        s'.session id = some (if row.externalTransactionId = some callback.externalTransactionId then
          D.called callback row else row)) s := by
  refine .bind <| Database.returns_read rfl ?_
  have hm {id : String} {row : AnchorSession} (hr : s.session id = some row) :
      id ∈ (s.sessions.filter fun r => r.externalTransactionId = some callback.externalTransactionId).map (·.id) ↔
        row.externalTransactionId = some callback.externalTransactionId := by
    have hid : row.id = id := Table.key_of_row? hr
    constructor
    case mp =>
      intro h
      have ⟨r, hm, he⟩ := List.mem_map.mp h
      have ⟨hm, hx⟩ := List.mem_filter.mp hm
      have hrow := Table.row?_of_mem (k := (·.id)) hn hm
      cases (he ▸ hrow : s.session id = some r).symm.trans hr
      exact of_decide_eq_true hx
    case mpr =>
      exact fun h => List.mem_map.mpr ⟨row, List.mem_filter.mpr ⟨Table.mem_of_row? hr, decide_eq_true h⟩, hid⟩
  split
  case isTrue he =>
    refine .bind <| audit_returns <| .done ⟨rfl, fun id row hr => ?_⟩
    have hx : ¬row.externalTransactionId = some callback.externalTransactionId := fun hx => by
      have h := (hm hr).mpr hx
      rw [he] at h
      cases h
    rw [if_neg hx]
    exact hr
  case isFalse =>
    refine .bind <| (applyToSessions_returns (fun session hmem => ?_) ?_).mono fun updated s' h =>
      .bind <| audit_returns <| .done ⟨h.ids, fun id row hr => ?_⟩
    · have hrow := Table.row?_of_mem (k := (·.id)) hn (List.mem_filter.mp hmem).1
      exact Option.isSome_iff_exists.mpr ⟨session, hrow⟩
    · exact (List.filter_sublist.map _).nodup hn
    · refine (h.row id).trans ?_
      rw [hr, Option.map_some]
      simp only [hm hr]

end

section

variable {D : AnchorDeps} {transferServer id token externalId : String} {s s' : AnchorStore}
  {row : AnchorSession} {params : TransitionParams} {target : Sep24TransactionStatus} {data : SessionData}
  {now delayMs : Time} {tx : Sep24AnchorTransaction} {callback : Sep24Callback}

theorem reached_self (status : Sep24TransactionStatus) : reached status status = status := by
  cases status <;> decide

theorem result_status (hk : Sep24TransactionStatus.known params.nextStatus = some target)
    (hx : ¬params.expectedCurrentStatus.any (· ≠ row.status.name) = true) :
    (params.result row).status = reached row.status target := by
  simp only [TransitionParams.result, hk]
  split
  case isTrue he =>
    rw [he, reached_self]
    cases params.extraData <;> rfl
  case isFalse =>
    by_cases hc : row.status.canTransition target = true
    case pos =>
      rw [reached, if_pos hc, if_neg (not_not.mpr hc)]
      rfl
    case neg => rw [reached, if_neg hc, if_pos hc]

theorem AnchorSession.Tracked.result (h : row.Tracked token externalId)
    (hd : ∀ data ∈ params.extraData, data.anonymous = true) : (params.result row).Tracked token externalId := by
  unfold TransitionParams.result
  split
  · exact h
  split
  · cases he : params.extraData with
    | none      => exact h
    | some data => exact h.set (hd data he)
  split
  · exact h
  split
  · exact h
  · cases he : params.extraData with
    | none      => exact h.move rfl
    | some data => exact h.move (hd data he)

theorem called_status : (D.called callback row).status = reached row.status (reading callback.rawStatus) := by
  have hk : Sep24TransactionStatus.known (D.callbackTransition callback row.id).nextStatus =
      some (reading callback.rawStatus) := by
    simp only [AnchorDeps.callbackTransition, known_toSessionStatus]
  exact result_status hk (by simp [AnchorDeps.callbackTransition])

theorem called_tracked (h : row.Tracked token externalId) : (D.called callback row).Tracked token externalId :=
  h.result buildExtraData_anonymous

theorem polled_tracked (h : row.Tracked token externalId) :
    (D.poll row now delayMs (.transaction tx) row).Tracked token externalId := by
  cases hp : D.pollResult (.transaction tx) with
  | failure => cases hp
  | report report =>
    simp only [AnchorDeps.poll, hp, PollReport.result]
    split_ifs
    · exact h.set rfl
    · exact h
    · exact h.result fun data hd => by
        cases hd
        rfl

theorem polled_status : (D.poll row now delayMs (.transaction tx) row).status =
    (meaning tx.status).elim row.status (reached row.status) := by
  cases hp : D.pollResult (.transaction tx) with
  | failure => cases hp
  | report report =>
    simp only [AnchorDeps.poll, hp, PollReport.result, meaning]
    cases hp
    cases hr : resolveSep24Status tx.status with
    | none      => simp [AnchorSession.set]
    | some text =>
      simp only [Option.isSome_some, not_true_eq_false, false_or, Option.getD_some, Option.bind_some]
      split
      case isTrue he =>
        rw [he, Sep24TransactionStatus.known_name, Option.elim_some, reached_self]
        rfl
      case isFalse hne =>
        split
        case isTrue ht =>
          cases hk : Sep24TransactionStatus.known text with
          | none        => rfl
          | some target =>
            rw [Option.elim_some, reached_of_terminal ht.1, if_neg]
            rintro ⟨he, rfl⟩
            exact ht.2 ⟨he, (Sep24TransactionStatus.name_of_known hk).symm⟩
        case isFalse =>
          cases hk : Sep24TransactionStatus.known text with
          | none        => simp [TransitionParams.result, AnchorSession.advance, hk]
          | some target => exact result_status hk (by simp [AnchorSession.advance])

theorem present_of_ne {text : String} (h : text ≠ "") : present text = some text :=
  if_neg h

-- A report about a tracked transfer is processed.
theorem deliver_tracked {report : StatusReport} (hn : (s.sessions.map (·.id)).Nodup) (hr : s.session id = some row)
    (ht : row.Tracked token externalId) : ∃ s' row', deliver D transferServer id s report = some s' ∧
      (s'.sessions.map (·.id)).Nodup ∧ s'.session id = some row' ∧ row'.Tracked token externalId ∧
      row'.status = report.next row.status := by
  have hid : row.id = id := Table.key_of_row? hr
  unfold deliver StatusReport.next
  rw [hr]
  cases report.channel with
  | poll =>
    have htoken : row.anchorToken.bind present = some token := by
      rw [ht.hasToken, Option.bind_some, present_of_ne ht.token_ne]
    have hext : row.externalTransactionId.bind present = some externalId := by
      rw [ht.hasTransaction, Option.bind_some, present_of_ne ht.externalId_ne]
    have hreturns : AnchorProg.Returns (reconcileSingleAnchor D (.poll "worker") transferServer row)
        (.transaction ⟨report.rawStatus, report.message⟩) 0
        (fun _ => Rewrites row.id (D.poll row s.now 0 (.transaction ⟨report.rawStatus, report.message⟩)) s) s :=
      reconcileSingleAnchor_returns htoken hext (hid.symm ▸ hr)
    have ⟨_, s', hp, h⟩ := hreturns
    have hown := h.own
    rw [hid, hr, Option.map_some] at hown
    refine ⟨s', _, ?_, h.ids ▸ hn, hown, polled_tracked ht, polled_status⟩
    simp only [Option.bind_eq_bind, Option.bind_some, observe, hp, Option.pure_def]
  | callback service =>
    have ⟨_, s', hp, hids, h⟩ : AnchorProg.Returns
        (applySep24Callback D (.callback service ⟨externalId, report.rawStatus, report.message⟩) service
          ⟨externalId, report.rawStatus, report.message⟩)
        (.transaction ⟨report.rawStatus, report.message⟩) 0 _ s := applySep24Callback_returns hn
    have hown := h id row hr
    rw [if_pos ht.hasTransaction] at hown
    refine ⟨s', _, ?_, hids ▸ hn, hown, called_tracked ht, called_status⟩
    simp only [Option.bind_eq_bind, Option.bind_some, ht.hasTransaction, receive, hp, Option.pure_def]

theorem statusAfter_tracked {reports : List StatusReport} (hn : (s.sessions.map (·.id)).Nodup)
    (hr : s.session id = some row) (ht : row.Tracked token externalId) :
    statusAfter D transferServer id s reports = some (finalStatus row.status reports) := by
  induction reports generalizing s row with
  | nil => simp [statusAfter, finalStatus, AnchorStore.status, hr]
  | cons report reports hi =>
    obtain ⟨s', row', hd, hn', hr', ht', hst⟩ : ∃ s' row', deliver D transferServer id s report = some s' ∧ _ :=
      deliver_tracked hn hr ht
    have hi := hi hn' hr' ht'
    rw [statusAfter] at hi ⊢
    rw [List.foldlM_cons, hd]
    simpa [finalStatus, hst] using hi

-- Nothing can be reported about a transfer that the anchor does not know about.
theorem deliver_untracked {report : StatusReport} (hr : s.session id = some row)
    (he : row.externalTransactionId = none) : deliver D transferServer id s report = some s := by
  unfold deliver
  rw [hr]
  cases report.channel with
  | poll             => simp [observe, reconcileSingleAnchor, he, Prog.alone]
  | callback service => simp [he]

theorem statusAfter_untracked {reports : List StatusReport} (hr : s.session id = some row)
    (he : row.externalTransactionId = none) : statusAfter D transferServer id s reports = some row.status := by
  induction reports with
  | nil => simp [statusAfter, AnchorStore.status, hr]
  | cons report reports hi =>
    rw [statusAfter] at hi ⊢
    rw [List.foldlM_cons, deliver_untracked hr he]
    exact hi

theorem uniform_iff_agreeing {raws : List String} (hn : (s.sessions.map (·.id)).Nodup)
    (hr : s.session id = some row) (ht : row.Tracked token externalId) :
    Uniform D transferServer id s raws ↔ Agreeing row.status raws := by
  have h (reports : List StatusReport) : statusAfter D transferServer id s reports =
      some (finalStatus row.status reports) := statusAfter_tracked hn hr ht
  constructor
  case mp =>
    intro hu
    refine ⟨fun rs rs' hrs hrs' => ?_, fun rs r hrs hm => ?_⟩
    · exact Option.some.inj ((h rs).symm.trans ((hu.same rs rs' hrs hrs').trans (h rs')))
    · exact Option.some.inj ((h _).symm.trans ((hu.kept rs r hrs hm).trans (h rs)))
  case mpr =>
    intro ha
    refine ⟨fun rs rs' hrs hrs' => ?_, fun rs r hrs hm => ?_⟩
    · rw [h, h, ha.same rs rs' hrs hrs']
    · rw [h, h, ha.kept rs r hrs hm]

end

instance Unambiguous.decidable : (status : Sep24TransactionStatus) → (raws : List String) →
    Decidable (Unambiguous status raws)
  | _, []               => inferInstanceAs (Decidable True)
  | status, raw :: raws =>
    have (status : Sep24TransactionStatus) := Unambiguous.decidable status raws
    by
      unfold Unambiguous
      split <;> infer_instance

section

variable {D : AnchorDeps} {transferServer id : String} {s : AnchorStore} {c : ServerConfig} {row : AnchorSession}
  {raws : List String}

theorem consistent_run (hs : s.sessions = [])
    (r : (sessionServer D).Run (Reported.Meets fun _ _ => True) ⟨⟨s, []⟩, []⟩ c) :
    c.shared.state.Consistent := by
  have hs : s.Consistent := ⟨by simp [hs], fun id r hr => by simp [AnchorStore.session, Table.row?, hs] at hr⟩
  have fine (i : SessionRequest) (s : AnchorStore) (hi : s.Consistent) :
      (sessionProtocol fun _ _ => True).Safe (sessionRequest D i) (fun _ _ => True) (fun _ _ => True) s := by
    cases i with
    | complete =>
      exact .map (complete_safe hi fun _ _ _ _ _ => transition_fine completionTransition_tracks)
    | start | callback | poll | recover =>
      exact Orderly.fine ((orderly _).sessionRequest_within (by rintro id ⟨_, _, _, h⟩; cases h)) s
  have h : (sessionProtocol fun _ _ => True).Reports (fun _ _ _ => True) c :=
    (Protocol.Reports.init hs).run (fun _ _ => And.intro) fine r
  exact h.inv

-- In every run that starts without sessions, whatever is reported about a session, one report after another:
-- all channels lead to the same status, and statuses that stand for nothing are ignored, if and only if the
-- transfer is not known to the anchor, or has ended, or the reports are unambiguous.
theorem channels_agree (hs : s.sessions = [])
    (r : (sessionServer D).Run (Reported.Meets fun _ _ => True) ⟨⟨s, []⟩, []⟩ c)
    (hr : c.shared.state.session id = some row) :
    (∀ reports, (statusAfter D transferServer id c.shared.state reports).isSome = true) ∧
    (Uniform D transferServer id c.shared.state raws ↔
      row.externalTransactionId = none ∨ row.status.isTerminal = true ∨ Unambiguous row.status raws) := by
  have hc := consistent_run hs r
  have hw := whole_run hs r
  rcases hw row (Table.mem_of_row? hr) with he | ⟨token, externalId, ht⟩
  case inl =>
    have hst (reports : List StatusReport) :
        statusAfter D transferServer id c.shared.state reports = some row.status := statusAfter_untracked hr he
    refine ⟨fun reports => by rw [hst, Option.isSome_some], iff_of_true ?_ (.inl he)⟩
    exact ⟨fun _ _ _ _ => by rw [hst, hst], fun _ _ _ _ => by rw [hst, hst]⟩
  case inr =>
    have he : row.externalTransactionId ≠ none := by simp [ht.hasTransaction]
    have hi : row.status ≠ .incomplete := hc.tracked id row hr he
    refine ⟨fun reports => ?_, ?_⟩
    · rw [statusAfter_tracked hc.ids hr ht, Option.isSome_some]
    · rw [uniform_iff_agreeing hc.ids hr ht, or_iff_right he]
      cases hterm : row.status.isTerminal with
      | true  => exact iff_of_true (agreeing_of_terminal hterm) (.inl rfl)
      | false => rw [agreeing_iff hi hterm, or_iff_right (by simp)]

end

-- A session is started and completed.
def beginning : List (Label AnchorChoice Time SessionRequest) :=
  .flatten [
    .spawn (.start "alice" "GALICE" "deposit" "USDC") :: Label.acts 0
      [.toml ⟨"https://anchor/sep24", "https://anchor/auth"⟩, .text "challenge", .fresh "session"],
    observing 0 4,
    .spawn (.complete "alice" "GALICE" "session" "xdr") :: Label.acts 1
      [.plain, .toml ⟨"https://anchor/sep24", "https://anchor/auth"⟩, .text "jwt", .started ⟨"tx", "https://anchor/tx"⟩],
    observing 1 7
  ]

def started (c : ServerConfig) : Bool :=
  (c.shared.state.session "session").any (·.status = .pendingUserTransferStart)

-- A status that is not recognized does no harm while the anchor is busy.
theorem channels_agree_sample : ∃ c : ServerConfig, started c = true ∧
    Uniform anchorConfig "https://anchor/sep24" "session" c.shared.state
      [" Pending_Anchor ", "under review", "COMPLETED", "expired"] := by
  have ⟨c, r, hc⟩ := System.exists_run_of_play (C := Reported.Meets fun _ _ => True)
    (S := sessionServer anchorConfig) (c := ⟨⟨{}, []⟩, []⟩) (p := started) beginning (by decide +kernel)
  have ⟨row, hr, hst⟩ := (Option.any_eq_true ..).mp hc
  refine ⟨c, hc, (channels_agree rfl r hr).2.mpr (.inr (.inr ?_))⟩
  rw [of_decide_eq_true hst]
  decide +kernel

def final (c : ServerConfig) (reports : List StatusReport) : Option Sep24TransactionStatus :=
  statusAfter anchorConfig "https://anchor/sep24" "session" c.shared.state reports

-- A callback takes an expired transfer for an error, and a status that is not recognized for `pending_anchor`.
theorem channels_disagree : ∃ c : ServerConfig,
    (sessionServer anchorConfig).Run (Reported.Meets fun _ _ => True) ⟨⟨{}, []⟩, []⟩ c ∧
    final c [] = some .pendingUserTransferStart ∧
    final c [⟨.poll, "expired", none⟩] = some .expired ∧
    final c [⟨.callback .token, "expired", none⟩] = some .error ∧
    final c [⟨.poll, "under review", none⟩] = some .pendingUserTransferStart ∧
    final c [⟨.callback .signature, "under review", none⟩] = some .pendingAnchor ∧
    ¬Uniform anchorConfig "https://anchor/sep24" "session" c.shared.state ["expired"] ∧
    ¬Uniform anchorConfig "https://anchor/sep24" "session" c.shared.state ["under review"] := by
  have ⟨c, r, hc⟩ := System.exists_run_of_play (C := Reported.Meets fun _ _ => True)
    (S := sessionServer anchorConfig) (c := ⟨⟨{}, []⟩, []⟩)
    (p := fun c => final c [] = some .pendingUserTransferStart ∧
      final c [⟨.poll, "expired", none⟩] = some .expired ∧
      final c [⟨.callback .token, "expired", none⟩] = some .error ∧
      final c [⟨.poll, "under review", none⟩] = some .pendingUserTransferStart ∧
      final c [⟨.callback .signature, "under review", none⟩] = some .pendingAnchor) beginning (by decide +kernel)
  have ⟨h₀, hp, hc, hp', hc'⟩ := of_decide_eq_true hc
  refine ⟨c, r, h₀, hp, hc, hp', hc', fun h => ?_, fun h => ?_⟩
  · have h : final c [⟨.poll, "expired", none⟩] = final c [⟨.callback .token, "expired", none⟩] :=
      h.same _ _ rfl rfl
    rw [hp, hc] at h
    cases h
  · have h : final c [⟨.callback .signature, "under review", none⟩] = final c [] :=
      h.kept [] ⟨.callback .signature, "under review", none⟩ (by simp) (by decide +kernel)
    rw [hc', h₀] at h
    cases h

end Mergepay.Anchors
