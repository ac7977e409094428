import Mergepay.Withdrawals.Transition

namespace Mergepay.Withdrawals

open Concurrency

def WithdrawalAction.writes : WithdrawalAction → Bool
  | update _ _ | updateFrom _ _ _ | createAudit _ => true
  | _                                             => false

def written (log : Log WithdrawalAction WithdrawalAction.Answer Failure) : List WithdrawalAction :=
  log.performed.filter (·.writes)

-- What a transaction writes. A change of the status that is guarded comes with its audit.
inductive WithdrawalWrites : List WithdrawalAction → Prop
  | nothing : WithdrawalWrites []
  | updated {id : String} : WithdrawalWrites [.update id data]
  | changed : w.status.canTransition target = true → WithdrawalWrites
    [.updateFrom params.withdrawalId w.status { params.extraData.getD {} with status := some target },
      .createAudit (statusChanged params w target)]

theorem findWithdrawal_leaves : (findWithdrawal params).Leaves (·.writes) fun _ as => as = [] := by
  refine .read_bind rfl fun found => ?_
  split
  case h_2 => exact .fail
  case h_1 =>
    simp only [Prog.bind_eq, Prog.throw_eq, Prog.fail_bind, Prog.pure_eq]
    split
    · exact .fail
    · exact .done rfl

theorem changeStatus_leaves (h : w.status.canTransition target = true) :
    (changeStatus params w target).Leaves (·.writes) fun _ => WithdrawalWrites := by
  refine .attempt_bind rfl (fun _ => .read_bind rfl fun _ => .write_bind rfl fun _ => .done ?_)
    fun e => ?_
  · exact .changed h
  · simp only [Prog.bind_eq, Prog.throw_eq, Prog.fail_bind]
    split
    · exact .fail
    · exact .read_bind rfl fun _ => .done .nothing

theorem applyWithdrawalTransition_leaves :
    (applyWithdrawalTransition params).Leaves (·.writes) fun _ => WithdrawalWrites := by
  refine findWithdrawal_leaves.nothing_bind fun w => ?_
  simp only
  split
  case isTrue =>
    unfold keepStatus
    split
    · exact .done .nothing
    · exact .write_bind rfl fun _ => .done .updated
  case isFalse =>
    split
    case isTrue     => exact .done .nothing
    case isFalse hn => exact changeStatus_leaves (by simp_all)

-- All transactions of the sessions write like this.
abbrev Orderly (p : WithdrawalSession α) : Prop :=
  p.Avoids (Database.Step.Unfit (fun _ _ _ => True) fun _ log => WithdrawalWrites (written log))

section

variable {D : WithdrawalDeps} {i : WithdrawalRequest}

theorem call_orderly (a : WithdrawalAction) : Orderly (call i a) :=
  .perform fun h => h trivial

theorem update_orderly {id : String} : Orderly (statement i (.update id data)) :=
  Prog.transaction_avoids (fun _ _ _ _ => trivial) fun l v h => by
    rw [h.of_perform]
    exact .updated

theorem transition_orderly (params : TransitionParams) : Orderly (transition i params) :=
  Prog.transaction_avoids (fun _ _ _ _ => trivial) applyWithdrawalTransition_leaves

theorem scheduleRetry_orderly {id : String} : Orderly (scheduleRetry D i id attempt reason) := by
  refine .bind (call_orderly _) fun _ => .bind (call_orderly _) fun _ => .bind update_orderly fun _ => ?_
  split
  · exact .bind update_orderly fun _ => .done ()
  · exact .done ()

theorem reconcilePolled_orderly (result : PollResult) : Orderly (reconcilePolled D i job result) := by
  unfold reconcilePolled
  split
  case h_1 => exact .bind (transition_orderly _) fun _ => .done ()
  case h_2 => exact scheduleRetry_orderly
  case h_3 =>
    simp only
    split
    · exact .bind (transition_orderly _) fun _ => .done ()
    · exact .done ()

theorem reconcileWithdrawals_orderly : Orderly (reconcileWithdrawals D i) := by
  refine .bind (call_orderly _) fun _ => .bind (call_orderly _) fun _ => ?_
  split
  case isFalse => exact .done ()
  case isTrue =>
    refine .bind (.attempt (call_orderly _)) fun toml => ?_
    split
    case h_1 => exact .done ()
    case h_2 =>
      refine .forEach (fun job => .bind (.attempt ?_) fun _ => .done ()) _
      unfold reconcileSingleWithdrawal
      split
      · exact .bind (call_orderly _) fun _ => reconcilePolled_orderly _
      · exact .done ()

theorem receiveWebhook_orderly : Orderly (receiveWebhook i externalId raw) := by
  refine .bind (call_orderly _) fun _ => .bind (call_orderly _) fun found => ?_
  split
  · exact .done ()
  · exact .bind (transition_orderly _) fun _ => .done ()

theorem confirmWithdrawal_orderly {id : String} : Orderly (confirmWithdrawal i userId publicKey id xdr) := by
  refine .bind (call_orderly _) fun found => ?_
  split
  case h_2 => exact .fail _
  case h_1 w =>
    simp only [Prog.bind_eq, Prog.throw_eq, Prog.fail_bind, Prog.pure_eq]
    split
    · exact .fail _
    split
    · exact .done _
    refine .bind (.attempt ?_) fun confirmed => ?_
    · exact .bind (call_orderly _) fun _ => .bind (call_orderly _) fun _ =>
        .bind (call_orderly _) fun _ => .bind (transition_orderly _) fun _ => .done _
    · split
      · exact .done _
      · exact .bind (transition_orderly _) fun _ => .fail _

theorem withdrawalRequest_orderly (i : WithdrawalRequest) : Orderly (withdrawalRequest D i) := by
  cases i with
  | poll                => exact reconcileWithdrawals_orderly
  | webhook id raw      => exact receiveWebhook_orderly
  | confirm u p id xdr  => exact .bind confirmWithdrawal_orderly fun _ => .done ()

end

section

variable {s s' : WithdrawalStore} {id : String}

theorem effect_of_reads (a : WithdrawalAction) (s : WithdrawalStore) (h : a.writes = false) :
    withdrawalDatabase.effect a s = s ∧ withdrawalDatabase.admits a s = true := by
  cases a <;> first | exact ⟨rfl, rfl⟩ | cases h

theorem withdrawal_update {p : Withdrawal → Bool} {data : WithdrawalData} {now : Time} :
    Table.row? (·.id) (Table.update p (fun w : Withdrawal => w.set data now) s.withdrawals) id =
      (s.withdrawal id).map fun w => if p w then w.set data now else w :=
  Table.row?_update (k := (·.id)) (f := fun w : Withdrawal => w.set data now) (fun _ => rfl) id

theorem withdrawalEnv_eq {t : Time} (h : withdrawalEnv t s = some s') : s' = { s with now := t } := by
  simp only [withdrawalEnv, Option.ite_none_right_eq_some, Option.some.injEq] at h
  exact h.2.symm

end

def observing (n m : Nat) : List (Label WithdrawalChoice Time WithdrawalRequest) :=
  Label.acts n (List.replicate m .plain)

end Mergepay.Withdrawals
