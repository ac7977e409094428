import Mergepay.Concurrency.Trace
import Mergepay.Withdrawals.Runs

namespace Mergepay.Withdrawals

open Concurrency Money

-- The withdrawal that is marked as failed by an update.
def WithdrawalAction.failing : WithdrawalAction → Option String
  | update id data | updateFrom id _ data => if data.status = some .failed then some id else none
  | _ => none

-- A transaction on behalf of a confirmation only writes while the withdrawal is pending.
def ConfirmedWhilePending : WithdrawalStep → WithdrawalStore → Prop
  | .commit (.confirm _ _ id _) log, s => written log ≠ [] → (s.withdrawal id).any (·.status = .pending)
  | _, _ => True

instance (a : WithdrawalStep) (s : WithdrawalStore) : Decidable (ConfirmedWhilePending a s) := by
  induction a using Database.Step.casesOn with
  | act _ _ _ => exact inferInstanceAs (Decidable True)
  | commit i log =>
    induction i using WithdrawalRequest.casesOn with
    | confirm _ _ id _ => exact inferInstanceAs (Decidable (_ → _))
    | _                => exact inferInstanceAs (Decidable True)

abbrev WithdrawalTrace :=
  Log WithdrawalStep Database.Step.Answer Failure

-- What the anchor has reported about a transaction, or why a poll has given up, according to a trace.
inductive FailureReported (D : WithdrawalDeps) (anchorTxId id : String) (trace : WithdrawalTrace) :
    WithdrawalRequest → Prop
  | callback : mapAnchorStatusToWithdrawalStatus (mapAnchorStatus raw) = .failed →
    FailureReported D anchorTxId id trace (.webhook anchorTxId raw)
  | polled {transferServer token status : String} :
    ⟨.act .poll [] (.pollTransaction transferServer token anchorTxId), .ok (.status status)⟩ ∈ trace →
    mapAnchorStatusToWithdrawalStatus status = .failed → FailureReported D anchorTxId id trace .poll
  | rejected {transferServer token message : String} :
    ⟨.act .poll [] (.pollTransaction transferServer token anchorTxId),
      .ok (.failure message .permanent)⟩ ∈ trace → FailureReported D anchorTxId id trace .poll
  | exhausted {transferServer token message : String} {category : JobFailureCategory} {now : Time}
    {jobs : List Withdrawal} {job : Withdrawal} :
    ⟨.act .poll [] (.findPollable D.maxAttempts now D.batchSize), .ok jobs⟩ ∈ trace → job ∈ jobs →
    job.id = id → D.maxAttempts ≤ job.retryCount + 1 →
    ⟨.act .poll [] (.pollTransaction transferServer token anchorTxId),
      .ok (.failure message category)⟩ ∈ trace → FailureReported D anchorTxId id trace .poll

section

variable {D : WithdrawalDeps} {anchorTxId id : String} {trace trace' : WithdrawalTrace} {i : WithdrawalRequest}

theorem FailureReported.mono (h : FailureReported D anchorTxId id trace i) (ht : ∀ e ∈ trace, e ∈ trace') :
    FailureReported D anchorTxId id trace' i := by
  cases h with
  | callback hf                  => exact .callback hf
  | polled hp hf                 => exact .polled (ht _ hp) hf
  | rejected hp                  => exact .rejected (ht _ hp)
  | exhausted hj hm hid hmax hp  => exact .exhausted (ht _ hj) hm hid hmax (ht _ hp)

-- All transactions are performed on behalf of a request, and only mark withdrawals as failed that satisfy a
-- condition.
def Marks (i : WithdrawalRequest) (K : String → Prop) : WithdrawalStep → Prop
  | .act _ _ _     => True
  | .commit i' log => i' = i ∧ ∀ id, (∃ a ∈ written log, a.failing = some id) → K id

variable {K K' : String → Prop}

theorem Marks.mono {a : WithdrawalStep} (h : Marks i K a) (hk : ∀ id, K id → K' id) : Marks i K' a := by
  cases a with
  | act    => trivial
  | commit => exact ⟨h.1, fun id hf => hk id (h.2 id hf)⟩

theorem transition_marks {params : TransitionParams}
    (hk : params.target = .failed → K params.withdrawalId)
    (hd : ∀ data ∈ params.extraData, data.status = none) :
    (transition i params).Performs fun _ => Marks i K := by
  refine .transaction (fun _ _ _ _ _ => trivial) fun _ log v h => ⟨rfl, fun id hf => ?_⟩
  obtain ⟨w, rest, rfl, hr⟩ := applyWithdrawalTransition_done h
  cases hr with
  | ignored | repeated | superseded =>
    simp [written, Log.performed, Entry.performed, WithdrawalAction.writes] at hf
  | updated _ hx =>
    simp [written, Log.performed, Entry.performed, WithdrawalAction.writes, WithdrawalAction.failing,
      hd _ hx] at hf
  | changed =>
    simp [written, Log.performed, Entry.performed, WithdrawalAction.writes, WithdrawalAction.failing,
      TransitionParams.data] at hf
    exact hf.2 ▸ hk hf.1

theorem update_marks {data : WithdrawalData} (hk : data.status = some .failed → K id) :
    (statement i (.update id data)).Performs fun _ => Marks i K := by
  refine .transaction (fun _ _ _ _ _ => trivial) fun _ log v h => ⟨rfl, fun id' hf => ?_⟩
  rw [h.of_perform] at hf
  simp [written, Log.performed, Entry.performed, WithdrawalAction.writes, WithdrawalAction.failing] at hf
  exact hf.2 ▸ hk hf.1

theorem scheduleRetry_marks {attempt : Nat} {reason : String} (hk : D.maxAttempts ≤ attempt → K id) :
    (scheduleRetry D i id attempt reason).Performs fun _ => Marks i K := by
  refine .bind (.perform trivial) fun _ _ _ => .bind (.perform trivial) fun _ _ _ =>
    .bind (update_marks fun h => by cases h) fun _ _ _ => ?_
  split
  case isTrue hn => exact .bind (update_marks fun _ => hk hn) fun _ _ _ => .done ()
  case isFalse   => exact .done ()

-- Why a job is marked as failed, given the result of its poll.
def Conclusive (D : WithdrawalDeps) (job : Withdrawal) : PollResult → Prop
  | .status status      => mapAnchorStatusToWithdrawalStatus status = .failed
  | .failure _ category => category = .permanent ∨ D.maxAttempts ≤ job.retryCount + 1

theorem reconcilePolled_marks {job : Withdrawal} {result : PollResult} (hk : Conclusive D job result → K job.id) :
    (reconcilePolled D i job result).Performs fun _ => Marks i K := by
  unfold reconcilePolled
  split
  case h_1 =>
    refine .bind (transition_marks (fun _ => hk (.inl rfl)) fun data h => ?_) fun _ _ _ => .done ()
    cases h
    rfl
  case h_2 => exact scheduleRetry_marks fun hn => hk (.inr hn)
  case h_3 status =>
    simp only
    split
    case isTrue =>
      refine .bind (transition_marks (fun hf => hk ?_) fun data h => by cases h) fun _ _ _ => .done ()
      simpa [TransitionParams.target, Conclusive] using hf
    case isFalse => exact .done ()

-- A job that is marked as failed has been read, and the poll of its transaction was conclusive.
def JobReported (D : WithdrawalDeps) (trace : WithdrawalTrace) (job : Withdrawal) : Prop :=
  ∃ transferServer token anchorTxId result, job.anchorTxId = some anchorTxId ∧
    ⟨.act .poll [] (.pollTransaction transferServer token anchorTxId), .ok result⟩ ∈ trace ∧
    Conclusive D job result

theorem reconcileSingle_marks {transferServer : String} {job : Withdrawal} :
    (reconcileSingleWithdrawal D .poll transferServer job).Performs fun trace =>
      Marks .poll fun id => job.id = id ∧ JobReported D trace job := by
  unfold reconcileSingleWithdrawal
  split
  case h_2 => exact .done ()
  case h_1 token anchorTxId _ hx =>
    refine .bind (.perform trivial) fun l result ha => ?_
    have hl : l = [⟨.act .poll [] (.pollTransaction transferServer token anchorTxId), .ok result⟩] :=
      ha.of_perform
    have hx : job.anchorTxId = some anchorTxId := by
      have ⟨x, hx, hp⟩ := Option.bind_eq_some_iff.mp hx
      unfold present at hp
      split at hp
      · cases hp
      · exact Option.some.inj hp ▸ hx
    refine (reconcilePolled_marks (K := fun id => job.id = id ∧ Conclusive D job result)
      fun hc => ⟨rfl, hc⟩).mono fun l' a h => h.mono fun id ⟨hid, hc⟩ => ⟨hid, ?_⟩
    exact ⟨transferServer, token, anchorTxId, result, hx, by simp [hl], hc⟩

theorem poll_marks : (withdrawalRequest D .poll).Performs fun trace => Marks .poll fun id =>
    ∃ now jobs job, ⟨.act .poll [] (.findPollable D.maxAttempts now D.batchSize), .ok jobs⟩ ∈ trace ∧
      job ∈ jobs ∧ job.id = id ∧ JobReported D trace job := by
  refine .bind (.perform trivial) fun l₁ now _ => .bind (.perform trivial) fun l₂ jobs ha => ?_
  have hl : l₂ = [⟨.act .poll [] (.findPollable D.maxAttempts now D.batchSize), .ok jobs⟩] := ha.of_perform
  split
  case isFalse => exact .done ()
  case isTrue =>
    refine .bind (.attempt (.perform trivial)) fun l₃ toml _ => ?_
    split
    case h_1 => exact .done ()
    case h_2 toml =>
      refine Prog.Performs.mono (R := fun trace => Marks .poll fun id =>
        ∃ job ∈ jobs, job.id = id ∧ JobReported D trace job) ?_ fun l a h => h.mono ?_
      · refine .forEach (fun l l' a h => h.mono ?_) fun job hm => ?_
        · rintro id ⟨job, hm, hid, server, token, tx, result, hx, hp, hc⟩
          exact ⟨job, hm, hid, server, token, tx, result, hx, List.mem_append_right _ hp, hc⟩
        · exact .swallow <| reconcileSingle_marks.mono fun l a h => h.mono fun id ⟨hid, hr⟩ =>
            ⟨job, hm, hid, hr⟩
      · rintro id ⟨job, hm, hid, server, token, tx, result, hx, hp, hc⟩
        exact ⟨now, jobs, job, by simp [hl], hm, hid, server, token, tx, result, hx, by simp [hp], hc⟩

theorem webhook_marks {externalId raw : String} : (withdrawalRequest D (.webhook externalId raw)).Performs
    fun trace => Marks (.webhook externalId raw) fun id => ∃ w,
      ⟨.act (.webhook externalId raw) [] (.findByAnchorTxId externalId), .ok (some w)⟩ ∈ trace ∧ w.id = id ∧
        mapAnchorStatusToWithdrawalStatus (mapAnchorStatus raw) = .failed := by
  refine .bind (.perform trivial) fun l₁ _ _ => .bind (.perform trivial) fun l₂ found ha => ?_
  have hl : l₂ = [⟨.act (.webhook externalId raw) [] (.findByAnchorTxId externalId), .ok found⟩] :=
    ha.of_perform
  split
  case h_1 => exact .done ()
  case h_2 w =>
    refine .bind ((transition_marks (K := fun id => w.id = id ∧
      mapAnchorStatusToWithdrawalStatus (mapAnchorStatus raw) = .failed) (fun hf => ⟨rfl, ?_⟩)
      fun data h => by cases h).mono fun l a h => h.mono fun id ⟨hid, hm⟩ => ⟨w, by simp [hl], hid, hm⟩)
      fun _ _ _ => .done ()
    simpa [TransitionParams.target] using hf

theorem confirm_marks {userId publicKey xdr : String} :
    (withdrawalRequest D (.confirm userId publicKey id xdr)).Performs fun _ =>
      Marks (.confirm userId publicKey id xdr) (· = id) := by
  refine .bind (.bind (.perform trivial) fun _ found _ => ?_) fun _ _ _ => .done ()
  split
  case h_2 => exact .fail _
  case h_1 w =>
    simp only [Prog.bind_eq, Prog.throw_eq, Prog.fail_bind, Prog.pure_eq]
    split
    · exact .fail _
    split
    · exact .done _
    refine .bind (.attempt ?_) fun _ confirmed _ => ?_
    · refine .bind (.perform trivial) fun _ _ _ => .bind (.perform trivial) fun _ _ _ =>
        .bind (.perform trivial) fun _ _ _ => .bind (transition_marks (fun hf => ?_) fun data h => ?_)
          fun _ _ _ => .done _
      · simp [TransitionParams.target] at hf
      · cases h
        rfl
    · split
      · exact .done _
      · exact .bind (transition_marks (fun _ => rfl) fun data h => by cases h) fun _ _ _ => .fail _

end

section

variable {D : WithdrawalDeps} {anchorTxId id : String} {i : WithdrawalRequest} {s s' : WithdrawalStore}
  {log : Log WithdrawalAction WithdrawalAction.Answer Failure}

theorem persists_tracked : Persists ConfirmedWhilePending id (·.anchorTxId = some anchorTxId) := by
  intro i log s w w' hs hc hd hw hw' hm hx
  rcases hm.anchorTxId with he | ⟨⟨u, p, xdr, rfl⟩, _⟩
  case inl => exact he.trans hx
  case inr =>
    have hrow : s.withdrawal w.id = some w := (Table.key_of_row? hw : w.id = id) ▸ hw
    by_cases hn : written log = []
    case pos =>
      rw [Database.view_filter effect_of_reads, show (Log.performed log).filter (·.writes) = [] from hn] at hw'
      cases hw.symm.trans hw'
      exact hx
    case neg =>
      -- A withdrawal that is still pending does not track anything.
      have hp := hc hn
      rw [hrow, Option.any_some, decide_eq_true_eq] at hp
      exact (hs.tracked w.id w hrow (by simp [hx]) hp).elim

-- A withdrawal that a commit has made fail is marked by it.
theorem marked_of_failed {w w' : Withdrawal} (hd : RequestWrites i s (written log))
    (hw : s.withdrawal id = some w) (hw' : (withdrawalDatabase.view log s).withdrawal id = some w')
    (hn : w.status ≠ .failed) (hf : w'.status = .failed) : ∃ a ∈ written log, a.failing = some id := by
  rw [Database.view_filter effect_of_reads] at hw'
  change ((written log).foldl (fun s a => withdrawalEffect a s) s).withdrawal id = some w' at hw'
  have hid : w.id = id := Table.key_of_row? hw
  generalize written log = as at hd hw'
  -- An update of the row gives it the status that is written.
  have failing {p : Prop} [Decidable p] {data : WithdrawalData} {now : Time}
      (h : (if p then w.set data now else w) = w') : p ∧ data.status = some .failed := by
    split at h
    case isFalse     => exact (hn (h ▸ hf)).elim
    case isTrue hp =>
      refine ⟨hp, ?_⟩
      subst h
      cases hs : data.status with
      | none        => exact (hn (by simpa [Withdrawal.set, hs] using hf)).elim
      | some status => exact congrArg some (by simpa [Withdrawal.set, hs] using hf)
  cases hd with
  | nothing =>
    cases hw.symm.trans hw'
    exact (hn hf).elim
  | @updated own data =>
    have hrow := withdrawal_update.symm.trans hw'
    simp only [hw, Option.map_some, decide_eq_true_eq] at hrow
    obtain ⟨hp, hs⟩ := failing (Option.some.inj hrow)
    have hown : own = id := hp.symm.trans hid
    exact ⟨_, List.mem_singleton_self _, by simp [WithdrawalAction.failing, hs, hown]⟩
  | @changed own current data audit =>
    have hrow := withdrawal_update.symm.trans hw'
    simp only [hw, Option.map_some, decide_eq_true_eq] at hrow
    obtain ⟨hp, hs⟩ := failing (Option.some.inj hrow)
    have hown : own = id := hp.1.symm.trans hid
    exact ⟨_, List.mem_cons_self, by simp [WithdrawalAction.failing, hs, hown]⟩

end

abbrev TracedConfig :=
  Config (WithdrawalStore × WithdrawalTrace) WithdrawalStep Database.Step.Answer Failure

abbrev TracedLabel :=
  Label WithdrawalChoice Time WithdrawalRequest

-- If a step makes a withdrawal fail that tracks a transaction of the anchor, then on behalf of a callback or a
-- poll, and for a reason that concerns this transaction.
def FailuresReported (D : WithdrawalDeps) (c : TracedConfig) (l : TracedLabel) (c' : TracedConfig) : Prop :=
  ∀ id anchorTxId w w', c.shared.1.withdrawal id = some w → w.anchorTxId = some anchorTxId →
    w.status ≠ .failed → c'.shared.1.withdrawal id = some w' → w'.status = .failed →
    ∃ n x i log k, l = .act n x ∧ c.procs[n]? = some (.call (.commit i log) k) ∧
      FailureReported D anchorTxId id c.shared.2 i

section

variable {D : WithdrawalDeps} {c c' : TracedConfig} {l : TracedLabel} {id anchorTxId : String}

-- The only steps that change a withdrawal are commits.
theorem committed_of_failed {w w' : Withdrawal} (hn : (withdrawalServer D).traced.next l c = some c')
    (hw : c.shared.1.withdrawal id = some w) (hst : w.status ≠ .failed)
    (hw' : c'.shared.1.withdrawal id = some w') (hf : w'.status = .failed) :
    ∃ n x i log k, l = .act n x ∧ c.procs[n]? = some (.call (.commit i log) k) ∧
      (withdrawalDatabase.view log c.shared.1).withdrawal id = some w' := by
  have same (h : c'.shared.1.withdrawals = c.shared.1.withdrawals) : False := by
    rw [WithdrawalStore.withdrawal, h] at hw'
    cases hw.symm.trans hw'
    exact hst hf
  cases l <;> simp only [System.next, Option.some.injEq] at hn
  case spawn | crash =>
    subst hn
    exact (same rfl).elim
  case env e =>
    obtain ⟨s, hx, hn⟩ := Option.map_eq_some_iff.mp hn
    obtain ⟨s', hx', hs⟩ := Option.map_eq_some_iff.mp hx
    subst hs
    subst hn
    exact (same (withdrawalEnv_eq hx' ▸ rfl)).elim
  case act n x =>
    split at hn
    case h_2 => contradiction
    case h_1 a k hp =>
      obtain ⟨⟨r, s⟩, hx, hn⟩ := Option.map_eq_some_iff.mp hn
      obtain ⟨⟨r', s'⟩, hx', hs⟩ := Option.map_eq_some_iff.mp hx
      cases hs
      subst hn
      cases a with
      | act j log a => exact (same ((Database.exec_act hx').1 ▸ rfl)).elim
      | commit i log =>
        obtain ⟨_, hs⟩ := Database.exec_commit hx'
        rcases hs with ⟨_, hs⟩ | ⟨_, _, hs, _⟩
        case inl =>
          refine ⟨n, x, i, log, k, rfl, hp, ?_⟩
          subst hs
          exact hw'
        case inr => exact (same (hs ▸ rfl)).elim

-- What has been read was the case in an earlier state.
theorem read_given {i : WithdrawalRequest} {s : WithdrawalStore} {a : WithdrawalAction} {v : a.Answer}
    (h : (withdrawalProtocol D ConfirmedWhilePending).Given ⟨.act i [] a, .ok v⟩ s) :
    ∃ x s₀, s₀.Consistent ∧ withdrawalAnswer a x s₀ = some (.ok v) ∧
      (withdrawalServer D).Evolves (withdrawalProtocol D ConfirmedWhilePending).cond s₀ s := by
  have ⟨s₀, x, s₁, hi, _, hx, he⟩ := h
  have hx : withdrawalDatabase.exec (.act i [] a) x s₀ = some (.ok v, s₁) := hx
  have ⟨hs, _, hr⟩ := Database.exec_act hx
  exact ⟨x, s₀, hi, hr, hs ▸ he⟩

-- A withdrawal that has been read tracks the same transaction ever since.
theorem anchorTxId_of_read {s₀ s : WithdrawalStore} {r w : Withdrawal} (hi : s₀.Consistent)
    (hr : r ∈ s₀.withdrawals) (hx : r.anchorTxId = some anchorTxId)
    (he : (withdrawalServer D).Evolves (withdrawalProtocol D ConfirmedWhilePending).cond s₀ s)
    (hw : s.withdrawal r.id = some w) : w.anchorTxId = some anchorTxId := by
  have hrow : s₀.withdrawal r.id = some r := Table.row?_of_mem (k := fun w : Withdrawal => w.id) hi.ids hr
  have ⟨w', hw', hx'⟩ := persists_tracked.evolves he hi ⟨r, hrow, hx⟩
  cases hw.symm.trans hw'
  exact hx'

theorem mem_of_pollable {jobs : List Withdrawal} {job : Withdrawal} {s : WithdrawalStore} {now : Time}
    {maxAttempts limit : Nat} {x : WithdrawalChoice}
    (h : withdrawalAnswer (.findPollable maxAttempts now limit) x s = some (.ok jobs)) (hm : job ∈ jobs) :
    job ∈ s.withdrawals := by
  cases x <;> simp [withdrawalAnswer, World.connectionClosed] at h
  subst h
  exact List.mem_of_mem_filter <| (List.mem_insertionSort _).mp <| List.mem_of_mem_take hm

theorem mem_of_findByAnchorTxId {r : Withdrawal} {s : WithdrawalStore} {externalId : String}
    {x : WithdrawalChoice} (h : withdrawalAnswer (.findByAnchorTxId externalId) x s = some (.ok (some r))) :
    r ∈ s.withdrawals ∧ r.anchorTxId = some externalId := by
  cases x <;> simp [withdrawalAnswer, World.connectionClosed] at h
  exact ⟨List.mem_of_find?_eq_some h, by simpa using List.find?_some h⟩

-- In every run in which confirmations only write while the withdrawal is pending: a withdrawal that tracks a
-- transaction of the anchor only fails because the anchor has reported its failure, or because polling it has
-- been given up.
theorem withdrawal_failures_reported {s : WithdrawalStore} (hs : s.Consistent)
    (r : (withdrawalServer D).traced.Run (fun a s => ConfirmedWhilePending a s.1) ⟨(s, []), []⟩ c)
    (m : c.Meets (fun a s => ConfirmedWhilePending a s.1) l)
    (hn : (withdrawalServer D).traced.next l c = some c') : FailuresReported D c l c' := by
  intro id anchorTxId w w' hw hx hst hw' hf
  have ⟨hh, hrec⟩ := Protocol.recalls_run (P := withdrawalProtocol D ConfirmedWhilePending)
    (fun _ _ => And.intro) withdrawalRequest_sound hs r
  have ⟨n, x, i, log, k, hl, hp, hv⟩ := committed_of_failed hn hw hst hw' hf
  refine ⟨n, x, i, log, k, hl, hp, ?_⟩
  subst hl
  have hc : (withdrawalProtocol D ConfirmedWhilePending).cond (.commit i log) c.shared.1 :=
    hh.meets_due (fun _ _ => And.intro) (System.meets_untraced m) _ hp
  have hmarked := marked_of_failed hc.2 hw hv hst hf
  generalize hq : Prog.call (Database.Step.commit i log) k = q at hp
  cases hrec q (List.mem_of_getElem? hp) with
  | crashed => cases hq
  | @running j trace _ ha hl =>
    subst hq
    have hmem (e) (he : e ∈ trace) : e ∈ c.shared.2 := (hl e he).1
    cases j with
    | poll =>
      have ⟨hj, hmarks⟩ := poll_marks (D := D) _ _ _ ha
      subst hj
      obtain ⟨now, jobs, job, hfound, hm, hid, server, token, tx, result, hjob, hpoll, hcon⟩ :=
        hmarks id hmarked
      subst hid
      have ⟨_, _, hi, hread, he⟩ := read_given (hl _ hfound).2
      cases hx.symm.trans (anchorTxId_of_read hi (mem_of_pollable hread hm) hjob he hw)
      cases result with
      | status status => exact .polled (hmem _ hpoll) hcon
      | failure message category =>
        rcases hcon with hcat | hmax
        case inl =>
          subst hcat
          exact .rejected (hmem _ hpoll)
        case inr => exact .exhausted (hmem _ hfound) hm rfl hmax (hmem _ hpoll)
    | webhook externalId raw =>
      have ⟨hj, hmarks⟩ := webhook_marks (D := D) _ _ _ ha
      subst hj
      obtain ⟨r, hfound, hid, hmap⟩ := hmarks id hmarked
      subst hid
      have ⟨_, _, hi, hread, he⟩ := read_given (hl _ hfound).2
      have ⟨hr, hex⟩ := mem_of_findByAnchorTxId hread
      cases hx.symm.trans (anchorTxId_of_read hi hr hex he hw)
      exact .callback hmap
    | confirm u p id' xdr =>
      have ⟨hj, hmarks⟩ := confirm_marks (D := D) _ _ _ ha
      subst hj
      cases hmarks id hmarked
      -- It only writes while the withdrawal is pending, so that nothing is tracked yet.
      have ⟨a, ha, _⟩ := hmarked
      have hpending := hc.1 (List.ne_nil_of_mem ha)
      rw [show c.shared.1.withdrawal id = some w from hw, Option.any_some, decide_eq_true_eq] at hpending
      exact (hh.inv.tracked id w hw (by simp [hx]) hpending).elim

end

-- The withdrawal tracks the transaction of the anchor, and fails in the next step.
def failing (c c' : TracedConfig) : Bool :=
  (c.shared.1.withdrawal "withdrawal").any (fun w => w.anchorTxId = some "tx" ∧ w.status = .processing) &&
    (c'.shared.1.withdrawal "withdrawal").any (·.status = .failed)

theorem exists_of_failing {c c' : TracedConfig} (h : failing c c' = true) : ∃ w w',
    c.shared.1.withdrawal "withdrawal" = some w ∧ w.anchorTxId = some "tx" ∧ w.status ≠ .failed ∧
      c'.shared.1.withdrawal "withdrawal" = some w' ∧ w'.status = .failed := by
  simp only [failing, Bool.and_eq_true, Option.any_eq_true, decide_eq_true_eq] at h
  have ⟨⟨w, hw, hx, hst⟩, w', hw', hf⟩ := h
  exact ⟨w, w', hw, hx, by simp [hst], hw', hf⟩

theorem withdrawal_failures_reported_sample : ∃ c c' : TracedConfig, failing c c' = true ∧
    ∃ i log k, c.procs[1]? = some (.call (.commit i log) k) ∧
      FailureReported withdrawalConfig "tx" "withdrawal" c.shared.2 i := by
  have ⟨c, c', r, m, hn, h⟩ := System.exists_step_of_play (S := (withdrawalServer withdrawalConfig).traced)
    (C := fun a s => ConfirmedWhilePending a s.1) (c := ⟨(newWithdrawal, []), []⟩) (p := failing)
    (.flatten [confirming 0 "tx", observing 0 5, [.spawn (.webhook "tx" "error")], observing 1 6])
    (.act 1 .plain) (by decide +kernel)
  have ⟨w, w', hw, hx, hst, hw', hf⟩ := exists_of_failing h
  have ⟨n, x, i, log, k, hl, hp, hr⟩ :=
    withdrawal_failures_reported newWithdrawal_consistent r m hn _ _ w w' hw hx hst hw' hf
  cases hl
  exact ⟨c, c', h, i, log, k, hp, hr⟩

-- Another confirmation has read that the withdrawal is pending, but is then rejected by the anchor.
def rejected : List TracedLabel :=
  .flatten [
    [.spawn (.confirm "alice" "GALICE" "withdrawal" "xdr"), .act 0 .plain], confirming 1 "tx", observing 1 5,
    Label.acts 0 [.toml ⟨"https://anchor/sep24", "https://anchor/auth"⟩, .raised (.plain "Challenge expired")],
    observing 0 4
  ]

-- A confirmation that commits.
def isConfirmation : Prog WithdrawalStep Database.Step.Answer Failure Unit → Bool
  | .call (.commit (.confirm _ _ _ _) _) _ => true
  | _                                      => false

-- The transfer that has been started by the first one is abandoned, although nothing has been reported.
theorem withdrawal_killed : ∃ c c' : TracedConfig,
    (withdrawalServer withdrawalConfig).traced.Run (fun _ _ => True) ⟨(newWithdrawal, []), []⟩ c ∧
    (withdrawalServer withdrawalConfig).traced.next (.act 0 .plain) c = some c' ∧
    ¬FailuresReported withdrawalConfig c (.act 0 .plain) c' := by
  obtain ⟨c, c', r, _, hn, h⟩ := System.exists_step_of_play (S := (withdrawalServer withdrawalConfig).traced)
    (C := fun _ _ => True) (c := ⟨(newWithdrawal, []), []⟩)
    (p := fun c c' => failing c c' && c.procs[0]?.any isConfirmation)
    rejected (.act 0 .plain) (by decide +kernel)
  obtain ⟨h, hc⟩ := (Bool.and_eq_true ..).mp h
  refine ⟨c, c', r, hn, fun hreported => ?_⟩
  obtain ⟨w, w', hw, hx, hst, hw', hf⟩ := exists_of_failing h
  obtain ⟨n, x, i, log, k, hl, hp, hr⟩ := hreported _ _ w w' hw hx hst hw' hf
  cases hl
  rw [hp] at hc
  cases hr <;> cases hc

end Mergepay.Withdrawals
