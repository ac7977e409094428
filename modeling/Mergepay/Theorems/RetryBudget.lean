import Mergepay.Settlement.Quiet
import Mergepay.Settlement.Retries
import Mergepay.Theorems.Acceptance

namespace Mergepay

open Concurrency Chronicle

variable {D : Deps} {w w' : World} {g : Tally}

section Requests

variable {e : Entry} {s : World × Tally}

theorem Quiet.secure {p : M α} (h : Quiet p) (s : World × Tally) : D.retries.Fine e p s := by
  refine Contract.Secure.of_avoids (fun a ha s hi _ x r t hx => ?_) h s
  have ⟨hb, hs⟩ := Deps.Budgeted.of_not_moves hi (not_moves_of_not_reserved ha) hx
  exact ⟨hb, guar_of_serves hs⟩

-- A confirmation does not get in the way of the worker.
theorem Deps.Budgeted.confirmation {p : Settlement → Bool} (h : D.Budgeted (w, g)) (he : Effect D w a w')
    (hr : (∀ j, w'.settlement j = w.settlement j) ∨
      ∀ j, w'.settlement j = (w.patchSettlements p d).settlement j)
    (hp : ∀ j s, w.settlement j = some s → p s = true →
      (s.patch d w.now).status = .confirmed ∧ (s.patch d w.now).stellarTxHash = s.stellarTxHash) :
    D.Budgeted (w', g) ∧ Serves (w, g) (w', g) := by
  have hw := he.wellFormed h.wellFormed
  have hg := he.grows h.wellFormed
  rcases hr with hr | hr
  case inl => exact h.of_settlements hw hg hr
  case inr =>
    refine ⟨h.of_rows hw hg h.submissions (fun _ => Nat.le_refl _) fun i s' hs' => ?_, .of_rows hg fun i s hs => ?_⟩
    case refine_1 =>
      rw [hr, World.settlement_patchSettlements] at hs'
      have ⟨s, hs, he⟩ := Option.map_eq_some_iff.mp hs'
      subst he
      refine ⟨.inr ⟨s, hs, ?_⟩, fun hn => by cases hn.symm.trans hs⟩
      split
      case isTrue ha => exact ⟨(hp i s hs ha).2, .inl (hp i s hs ha).1⟩
      case isFalse =>
        refine ⟨rfl, ?_⟩
        by_cases hc : s.status = .confirmed
        case pos => exact .inl hc
        case neg => exact .inr <| .inr ⟨hc, rfl⟩
    case refine_2 =>
      rw [hr, World.settlement_patchSettlements, hs]
      refine ⟨_, rfl, ?_, fun _ => ⟨rfl, rfl⟩⟩
      dsimp only
      split
      case isTrue ha => exact ⟨fun _ => (hp i s hs ha).1, fun _ => .inl (hp i s hs ha).1⟩
      case isFalse   => exact ⟨id, fun _ => .inr ⟨rfl, rfl⟩⟩

theorem confirmTransition_secure {p : TransitionParams} (hn : p.nextStatus = .confirmed)
    (hs : (p.extraData.getD {}).status = none) (hk : (p.extraData.getD {}).stellarTxHash = none) :
    D.retries.Fine e (applySettlementTransition p) s := by
  unfold applySettlementTransition
  refine .bind <| (secure_read (f := (·.settlement p.settlementId)) id (fun _ _ => rfl) true_stable trivial).mono
    (fun v s ⟨_, hb, hv⟩ => ?_) fun _ _ h => h
  cases v with
  | none   => trivial
  | some r =>
    simp only [Prog.bind_eq, Prog.throw_eq, Prog.fail_bind, Prog.pure_eq]
    split
    case isTrue => trivial
    case isFalse =>
      split
      case isTrue hst =>
        split
        case h_2 => trivial
        case h_1 d hd =>
          have hd : p.extraData.getD {} = d := by rw [hd, Option.getD_some]
          refine .bind <| secure_perform confirmed_stable ⟨r, hv.symm, hst ▸ hn⟩
            fun w g x v w' ⟨r, hr, hc⟩ hi hx => ?_
          have he := Effect.of_exec hx
          have ⟨hb, hsv⟩ := hi.confirmation he (rows_update he) fun j s hj ha => by
            have hid := Write.refresh_applies_iff.mp ha
            cases (Table.key_of_row? hj).symm.trans hid
            cases hj.symm.trans hr
            exact ⟨by rw [Settlement.patch_status, Write.data, ← hd, hs, Option.getD_none, hc],
              by rw [Settlement.patch_stellarTxHash, Write.data, ← hd, hk, Option.getD_none]⟩
          exact ⟨hb, guar_of_serves hsv, fun _ _ => trivial, fun _ _ => trivial⟩
      case isFalse =>
        split
        case isTrue => trivial
        case isFalse =>
          refine .bind <| (secure_act id true_stable trivial).mono (fun now s _ => ?_) fun _ _ h => h
          refine .bind <| secure_perform true_stable trivial fun w g x v w' _ hi hx => ?_
          have he := Effect.of_exec hx
          have ⟨hb, hsv⟩ := hi.confirmation he (rows_transition he) fun j s _ _ =>
            ⟨hn, by rw [Settlement.patch_stellarTxHash, Transition.data, hk, Option.getD_none]⟩
          exact ⟨hb, guar_of_serves hsv, fun _ _ => trivial, fun _ _ => trivial⟩

-- What is recorded for a settlement that is found has succeeded, so that it cannot be found to have failed.
theorem checkInFlight_secure {row : Settlement} (hk : ∀ h, row.stellarTxHash = some h → s.1.Succeeded h) :
    D.retries.Fine e (checkInFlight row) s := by
  unfold checkInFlight
  split
  case h_1 => trivial
  case h_2 hash hh =>
    refine .swallow <| .bind <| (secure_getTransaction succeeded_stable (hk hash hh)).mono
      (fun v s h => ?_) fun _ _ _ => trivial
    rcases v with _ | _ | _
    case none       => trivial
    case some.false => cases h.1.symm.trans (h.2 _ rfl)
    case some.true  => exact .bind <| (confirmTransition_secure rfl rfl rfl).mono (fun _ _ h => h) fun _ _ h => h

theorem runIdempotent_secure {op : M Unit} (h : ∀ s, D.retries.Fine e op s) :
    D.retries.Fine e (runIdempotent scope key op) s := by
  cases key with
  | none     => exact h s
  | some key =>
    refine .bind <| (secure_act id true_stable trivial).mono (fun b s _ => ?_) fun _ _ h => h
    cases b with
    | false => trivial
    | true  => exact h s

theorem confirm_secure : D.retries.Fine e (confirm D u i xdr key) s := by
  unfold confirm
  simp only [Prog.bind_eq, Prog.throw_eq, Prog.fail_bind]
  refine .bind <| (secure_act id true_stable trivial).mono (fun row s _ => ?_) fun _ _ h => h
  cases row with
  | none     => trivial
  | some row =>
    refine .bind <| (requireActiveMembership_quiet.secure s).mono (fun _ s _ => ?_) fun _ _ h => h
    split
    case isTrue => trivial
    case isFalse =>
      refine .bind <| (validateSettlementXdr_quiet.secure s).mono (fun _ s _ => ?_) fun _ _ h => h
      refine runIdempotent_secure fun s => ?_
      refine .bind <| (secure_read (f := (·.settlement i)) id (fun _ _ => rfl) true_stable trivial).mono
        (fun row s ⟨_, hb, hr⟩ => ?_) fun _ _ h => h
      cases row with
      | none     => trivial
      | some row =>
        dsimp only
        split
        case isTrue => trivial
        case isFalse =>
          split
          case isTrue => exact checkInFlight_secure (hb.covers i row hr.symm).recorded
          case isFalse =>
            exact .bind <| (secure_act id true_stable trivial).mono (fun _ _ _ =>
              .bind <| (secure_act id true_stable trivial).mono (fun _ _ h => h) fun _ _ h => h) fun _ _ h => h

theorem recoverStaleSettlements_secure : D.retries.Fine e recoverStaleSettlements s :=
  .bind <| (secure_act id true_stable trivial).mono (fun _ _ _ =>
    .bind <| (secure_act id true_stable trivial).mono (fun _ _ h => h) fun _ _ h => h) fun _ _ h => h

end Requests

theorem entry_secure (h : e.submits = true ∨ e.serves = true) (s : World × Tally) :
    D.retries.Fine e (D.entry e) s := by
  cases e with
  | createExpense                 => exact createExpense_quiet.secure s
  | deleteExpense                 => exact deleteExpense_quiet.secure s
  | settleExpense                 => exact settleExpense_quiet.secure s
  | settleGroup                   => exact settleGroup_quiet.secure s
  | confirm                       => exact confirm_secure
  | execute                       => exact execute_quiet.secure s
  | processSubmittedSettlements   => exact processSubmittedSettlements_secure
  | recoverStaleSettlements       => exact recoverStaleSettlements_secure
  | expireStaleSettlementIntents  => exact expireStaleSettlementIntents_quiet.secure s
  | reconcilePendingSettlements | syncStaleVerifyingSettlements | runReconciliation => simp [Entry.submits, Entry.serves] at h

-- The worker makes an attempt to submit an envelope.
def Act.Attempts : Act → Prop
  | .submit _ _ | .update (.recordAttemptStarted ..) => True
  | _                                                => False

theorem applySettlementTransition_avoids {p : TransitionParams} :
    (applySettlementTransition p).Avoids Act.Attempts := by
  unfold applySettlementTransition
  refine .bind (.perform id) fun row => ?_
  cases row with
  | none     => exact .fail _
  | some row =>
    simp only [Prog.bind_eq, Prog.throw_eq, Prog.fail_bind, Prog.pure_eq]
    split
    case isTrue => exact .fail _
    case isFalse =>
      split
      case isTrue =>
        split
        case h_1 => exact .bind (.perform id) fun _ => .done _
        case h_2 => exact .done _
      case isFalse =>
        split
        case isTrue  => exact .fail _
        case isFalse => exact .bind (.perform id) fun _ => .bind (.perform id) fun _ => .done _

-- A settlement whose budget is exhausted is not submitted.
theorem processSettlementJob_avoids {job : Job} (h : D.settlementMaxAttempts ≤ job.retryCount) :
    (processSettlementJob D job).Avoids Act.Attempts := by
  unfold processSettlementJob
  rw [if_pos h]
  exact .bind (.bind (.perform id) fun _ => .bind applySettlementTransition_avoids fun _ => .done _)
    fun _ => .done _

theorem transition_alone {t : Transition} {row : Settlement} (hr : w.settlement t.settlementId = some row)
    (ha : t.applies row = true) (hs : t.settledShare = none) : Alone D (act (.transition t))
      (fun _ w' => w'.settlement t.settlementId = some (row.patch t.data w.now)) w := by
  have hany : w.settlements.any t.applies = true := List.any_eq_true.mpr ⟨row, Table.mem_of_row? hr, ha⟩
  have hx : w.transition t = (.ok (w.settlements.countP t.applies), w.patchSettlements t.applies t.data) := by
    simp [World.transition, hany, hs]
  refine act_alone (congrArg some hx) ?_
  rw [World.settlement_patchSettlements, hr, Option.map_some, if_pos ha]

theorem failing_alone {p : TransitionParams} {row : Settlement} (hn : p.nextStatus = .failed)
    (ho : p.ownerUserId = none) (hr : w.settlement p.settlementId = some row)
    (hs : row.status ∈ Write.submittableStatuses) : Alone D (applySettlementTransition p)
      (fun _ w' => ∃ row', w'.settlement p.settlementId = some row' ∧ row'.status = .failed) w := by
  have hst : row.status = .submitted ∨ row.status = .verifying := by simpa [Write.submittableStatuses] using hs
  have hne : p.nextStatus ≠ row.status := by rcases hst with h | h <;> simp [hn, h]
  have hcan : row.status.canTransitionSettlementStatus p.nextStatus = true := by
    rcases hst with h | h <;> rw [hn, h] <;> decide
  unfold applySettlementTransition
  refine .bind <| act_alone rfl ?_
  simp only [hr, ho, Option.any_none, Prog.bind_eq, Prog.throw_eq, Prog.fail_bind, Prog.pure_eq,
    Bool.false_eq_true, if_false, hne, hcan, not_true_eq_false]
  refine .bind <| act_alone rfl <| .bind <| (transition_alone (t := ⟨_, _, _, _, _, _⟩) hr ?_ ?_).mono fun _ _ h => ?_
  case refine_1 =>
    refine (Transition.applies_iff _).mpr ⟨Table.key_of_row? hr, ?_⟩
    refine SettlementStatus.mem_allowedFromStatuses.mpr ⟨?_, hcan⟩
    rcases hst with h | h <;> rw [h] <;> decide
  case refine_2 => simp [hn]
  case refine_3 => exact .done ⟨_, h, hn⟩

-- Unless something gets in its way, it is moved to `failed`.
theorem processSettlementJob_fails {job : Job} {row : Settlement} (h : D.settlementMaxAttempts ≤ job.retryCount)
    (hr : w.settlement job.id = some row) (hs : row.status ∈ Write.submittableStatuses) :
    Alone D (processSettlementJob D job)
      (fun _ w' => ∃ row', w'.settlement job.id = some row' ∧ row'.status = .failed) w := by
  unfold processSettlementJob
  rw [if_pos h]
  refine .bind <| .bind <| act_alone rfl <| .bind <| (failing_alone rfl rfl hr hs).mono fun _ w' h => ?_
  exact .done <| .done h

-- As long as the settlement is not confirmed, what has been done for it since the last acceptance of an envelope
-- is covered by its budget, whenever the worker may have died. Once the budget is exhausted, nothing is submitted.
theorem retry_budget (hw : w.WellFormed)
    (hr : ∀ i row, w.settlement i = some row → ∀ h, row.stellarTxHash = some h → w.Succeeded h)
    {s : Scene World Tally Act Act.Res Failure Entry} (r : D.incarnations.Run ⟨⟨w, []⟩, [], {}⟩ s) :
    (∀ i, s.record.submissions i ≤ s.record.calls i ∧ s.record.calls i ≤ D.settlementMaxAttempts ∧
      ∀ row, s.config.shared.settlement i = some row → row.status ≠ .confirmed →
        s.record.calls i ≤ row.retryCount) ∧
    ∀ job : Job, D.settlementMaxAttempts ≤ job.retryCount →
      (processSettlementJob D job).Avoids Act.Attempts ∧
      ∀ w row, w.settlement job.id = some row → row.status ∈ Write.submittableStatuses →
        Alone D (processSettlementJob D job)
          (fun _ w' => ∃ row', w'.settlement job.id = some row' ∧ row'.status = .failed) w := by
  have hb : D.retries.inv (w, {}) :=
    ⟨hw, fun _ => Nat.le_refl _, fun _ => Nat.zero_le _, fun _ _ => rfl, fun i row h => ⟨fun _ => Nat.zero_le _, hr i row h⟩⟩
  have hi : D.Budgeted s.state :=
    ((Contract.Kept.init hb).run (fun i s h _ => entry_secure h s) r).inv
  refine ⟨fun i => ⟨hi.submissions i, hi.calls i, fun row h => (hi.covers i row h).count⟩, fun job hj => ?_⟩
  exact ⟨processSettlementJob_avoids hj, fun w row h hs => processSettlementJob_fails hj h hs⟩

section Sample

instance : DecidablePred D.incarnations.starts :=
  fun _ => inferInstanceAs (Decidable (_ ∨ _))

instance : DecidableRel D.incarnations.rival :=
  fun _ _ => inferInstanceAs (Decidable (_ ∧ _))

instance (e : Entry) (a : Act) (w : World) (g : Tally) : Decidable (D.incarnations.permits e a w g) :=
  inferInstanceAs (Decidable True)

-- Bob's settlement is submitted and confirmed at once.
def payingAtOnce : Schedule :=
  settling 0 {} "AAAAAA" "s" ++ signing 1 "s" "envelope" "key" ++ submitting 2 (.applied true none) ++ polling 2 .ok

-- The worker dies after the submission. Another one submits the envelope again, and the ledger refuses it.
def dying : Schedule :=
  settling 0 {} "AAAAAA" "s" ++ signing 1 "s" "envelope" "key" ++ submitting 2 (.applied true none) ++
    [.crash 2, .env (.tick 310000)] ++ resubmitting 3

theorem retry_budget_sample : ∃ s, sampleDeps.incarnations.Run ⟨⟨sampleWorld, []⟩, [], {}⟩ s ∧
    s.record.submissions "s" = 2 ∧ (s.config.shared.settlement "s").map (·.retryCount) = some 2 ∧
    s.record.calls "s" ≤ sampleDeps.settlementMaxAttempts := by
  have ⟨s, r, h⟩ := exists_run_of_play (K := sampleDeps.incarnations) (s := ⟨⟨sampleWorld, []⟩, [], {}⟩)
    (p := fun s => s.record.submissions "s" = 2 ∧
      (s.config.shared.settlement "s").map (·.retryCount) = some 2) dying (by decide +kernel)
  have ⟨hs, hr⟩ := of_decide_eq_true h
  have hb := retry_budget sampleWorld_wellFormed
    (fun _ _ h => by simp [sampleWorld, World.settlement, Table.row?] at h) r
  exact ⟨s, r, hs, hr, (hb.1 "s").2.1⟩

-- A confirmation takes back the count.
theorem count_taken_back : ∃ s, sampleDeps.incarnations.Run ⟨⟨sampleWorld, []⟩, [], {}⟩ s ∧
    s.record.calls "s" = 1 ∧ s.record.submissions "s" = 1 ∧
    (s.config.shared.settlement "s").map (·.retryCount) = some 0 := by
  have ⟨s, r, h⟩ := exists_run_of_play (K := sampleDeps.incarnations) (s := ⟨⟨sampleWorld, []⟩, [], {}⟩)
    (p := fun s => s.record.calls "s" = 1 ∧ s.record.submissions "s" = 1 ∧
      (s.config.shared.settlement "s").map (·.retryCount) = some 0) payingAtOnce (by decide +kernel)
  exact ⟨s, r, of_decide_eq_true h⟩

end Sample

end Mergepay
