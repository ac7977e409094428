import Mergepay.Concurrency.Call
import Mergepay.Withdrawals.Writes

namespace Mergepay.Withdrawals

open Concurrency

-- The changes of the status of a withdrawal that have been audited.
def WithdrawalStore.changes (s : WithdrawalStore) (id : String) :
    List (WithdrawalStatus × WithdrawalStatus) :=
  (s.audits.filter fun row => row.action = "withdrawal.status_changed" ∧
    row.entityType = "withdrawal" ∧ row.entityId = id).map fun row => (row.metadata.from_, row.metadata.to_)

-- An update by id alone sets the status to what it is already, if at all.
def KeepsStatus (s : WithdrawalStore) : WithdrawalAction → Prop
  | .update id data => ∀ status ∈ data.status, ∀ w ∈ s.withdrawal id, w.status = status
  | _               => True

instance (s : WithdrawalStore) (a : WithdrawalAction) : Decidable (KeepsStatus s a) := by
  unfold KeepsStatus
  split <;> infer_instance

def Guarded : WithdrawalStep → WithdrawalStore → Prop
  | .commit _ log, s => ∀ a ∈ written log, KeepsStatus s a
  | .act _ _ _, _    => True

instance (a : WithdrawalStep) (s : WithdrawalStore) : Decidable (Guarded a s) := by
  cases a with
  | act _ _ _    => exact inferInstanceAs (Decidable True)
  | commit _ log => exact inferInstanceAs (Decidable (∀ a ∈ written log, KeepsStatus s a))

-- A withdrawal either keeps its status, or changes it along an edge, which is audited.
def Advances (id : String) (s s' : WithdrawalStore) : Prop :=
  ∀ w, s.withdrawal id = some w → ∃ w', s'.withdrawal id = some w' ∧
    (w'.status = w.status ∧ s'.changes id = s.changes id ∨
      w.status.canTransition w'.status = true ∧
        s'.changes id = s.changes id ++ [(w.status, w'.status)])

section

variable {s s' : WithdrawalStore} {id : String} {as : List WithdrawalAction}

theorem Advances.of_eq (hw : s'.withdrawals = s.withdrawals) (ha : s'.audits = s.audits) :
    Advances id s s' := by
  intro w h
  refine ⟨w, ?_, .inl ⟨rfl, ?_⟩⟩
  · rw [WithdrawalStore.withdrawal, hw]
    exact h
  · rw [WithdrawalStore.changes, ha, WithdrawalStore.changes]

theorem changes_statusChanged {params : TransitionParams} {w : Withdrawal} {target : WithdrawalStatus} :
    WithdrawalStore.changes { s with audits := s.audits ++ [statusChanged params w target] } id =
      s.changes id ++ if params.withdrawalId = id then [(w.status, target)] else [] := by
  simp only [WithdrawalStore.changes, List.filter_append, List.map_append]
  split
  case isTrue h  => simp [statusChanged, h]
  case isFalse h => simp [statusChanged, h]

theorem WithdrawalWrites.advances (h : WithdrawalWrites as) (hk : ∀ a ∈ as, KeepsStatus s a)
    (ha : withdrawalDatabase.allowed as s = true) :
    Advances id s (as.foldl (fun s a => withdrawalEffect a s) s) := by
  cases h with
  | nothing => exact .of_eq rfl rfl
  | @updated data id' =>
    intro w hw
    have hid : w.id = id := Table.key_of_row? hw
    refine ⟨if w.id = id' then w.set data s.now else w, ?_, .inl ⟨?_, rfl⟩⟩
    · refine withdrawal_update.trans ?_
      simp [hw]
    · split
      case isFalse => rfl
      case isTrue he =>
        subst he
        have hk := hk _ List.mem_cons_self
        simp only [Withdrawal.set]
        cases hd : data.status with
        | none        => rfl
        | some status => exact (hk status hd w (hid ▸ hw)).symm
  | @changed params w₀ target ht =>
    intro w hw
    have hid : w.id = id := Table.key_of_row? hw
    simp only [Database.allowed, withdrawalDatabase, withdrawalAdmits, Bool.and_eq_true,
      decide_eq_true_eq] at ha
    -- The guard still holds when the transaction commits.
    obtain ⟨w₁, hw₁, hs⟩ := (Option.any_eq_true ..).mp ha.1.1
    have hs : w₁.status = w₀.status := of_decide_eq_true hs
    by_cases he : params.withdrawalId = id
    case neg =>
      refine ⟨w, ?_, .inl ⟨rfl, ?_⟩⟩
      · refine withdrawal_update.trans ?_
        simp [hw, hid, Ne.symm he]
      · refine changes_statusChanged.trans ?_
        simp [he, WithdrawalStore.changes, withdrawalEffect]
    case pos =>
      cases (he ▸ hw₁ : s.withdrawal id = some w₁).symm.trans hw
      refine ⟨w.set { params.extraData.getD {} with status := some target } s.now, ?_, .inr ⟨?_, ?_⟩⟩
      · refine withdrawal_update.trans ?_
        simp [hw, hid, he, hs]
      · exact hs ▸ ht
      · refine changes_statusChanged.trans ?_
        simp [he, hs, WithdrawalStore.changes, withdrawalEffect, Withdrawal.set]

variable {D : WithdrawalDeps} {c c' : WithdrawalConfig} {l : Label WithdrawalChoice Time WithdrawalRequest}

theorem advances_next (r : (withdrawalServer D).Run Guarded ⟨s, []⟩ c) (m : c.Meets Guarded l)
    (hn : (withdrawalServer D).next l c = some c') : Advances id c.shared c'.shared := by
  rcases System.next_cases (System.avoids_run withdrawalRequest_orderly r) m hn with
    hs | ⟨t, hs⟩ | ⟨a, x, v, hg, hd, hx⟩
  case inl     => exact hs ▸ .of_eq rfl rfl
  case inr.inl => exact withdrawalEnv_eq hs ▸ .of_eq rfl rfl
  case inr.inr =>
    cases a with
    | act i log a => exact (Database.exec_act hx).1 ▸ .of_eq rfl rfl
    | commit i log =>
      have ⟨ha, hs⟩ := Database.exec_commit hx
      rcases hs with ⟨_, hs⟩ | ⟨_, _, hs, _⟩
      case inr => exact hs ▸ .of_eq rfl rfl
      case inl =>
        rw [hs, Database.view_filter effect_of_reads]
        rw [Database.admitted_filter effect_of_reads] at ha
        exact (not_not.mp hd).advances hg ha

-- The audited changes are a path from one status to the other.
theorem trail_of_run (r : (withdrawalServer D).Run Guarded ⟨s, []⟩ c)
    (r' : (withdrawalServer D).Run Guarded c c') {w : Withdrawal} (hw : c.shared.withdrawal id = some w) :
    ∃ w' edges, c'.shared.withdrawal id = some w' ∧ c'.shared.changes id = c.shared.changes id ++ edges ∧
      Trail (fun a b => a.canTransition b = true) w.status edges w'.status := by
  induction r' with
  | refl => exact ⟨w, [], hw, (List.append_nil _).symm, .nil⟩
  | step r₁ m hn hi =>
    have ⟨w₁, edges, hw₁, hc₁, ht₁⟩ := hi
    have ⟨w₂, hw₂, ha⟩ := advances_next (r.trans r₁) m hn w₁ hw₁
    rcases ha with ⟨hs, hc⟩ | ⟨ht, hc⟩
    case inl => exact ⟨w₂, edges, hw₂, hc.trans hc₁, hs ▸ ht₁⟩
    case inr =>
      refine ⟨w₂, edges ++ [(w₁.status, w₂.status)], hw₂, ?_, ht₁.append (.single ht)⟩
      rw [hc, hc₁, List.append_assoc]

theorem canTransition_of_terminal {current : WithdrawalStatus} (h : current.isTerminal = true)
    (target : WithdrawalStatus) : ¬current.canTransition target = true := by
  cases current with
  | pending | processing                    => cases h
  | completed | failed | expired | refunded =>
    simp [WithdrawalStatus.canTransition, WithdrawalStatus.allowedTransitions]

-- If updates without a guard do not change the status of a withdrawal, then every step changes it
-- along an allowed edge at most, which is audited by the same commit. So terminal states are never left.
theorem withdrawal_changes_audited (r : (withdrawalServer D).Run Guarded ⟨s, []⟩ c) (id : String) :
    (∀ l c', c.Meets Guarded l → (withdrawalServer D).next l c = some c' →
      Advances id c.shared c'.shared) ∧
    ∀ w, c.shared.withdrawal id = some w → ∀ c', (withdrawalServer D).Run Guarded c c' →
      ∃ w' edges, c'.shared.withdrawal id = some w' ∧
        c'.shared.changes id = c.shared.changes id ++ edges ∧
        Trail (fun a b => a.canTransition b = true) w.status edges w'.status ∧
        (w.status.isTerminal = true → w'.status = w.status ∧ edges = []) := by
  refine ⟨fun l c' m hn => advances_next r m hn, fun w hw c' r' => ?_⟩
  have ⟨w', edges, hw', hc, ht⟩ := trail_of_run r r' hw
  exact ⟨w', edges, hw', hc, ht, fun h => (ht.of_terminal (canTransition_of_terminal h)).symm⟩

end

-- A withdrawal that has one attempt left.
def sampleWithdrawals : WithdrawalStore := {
  withdrawals := [{
    id          := "withdrawal"
    userId      := "alice"
    assetCode   := "USDC"
    anchorTxId  := some "tx"
    anchorToken := some "jwt"
    status      := .processing
    retryCount  := 4
  }]
}

-- The anchor reports the withdrawal as completed.
def reporting (n : Nat) : List (Label WithdrawalChoice Time WithdrawalRequest) :=
  [.spawn (.webhook "tx" "completed")] ++ observing n 7

theorem withdrawal_changes_audited_sample : ∃ c : WithdrawalConfig,
    (c.shared.withdrawal "withdrawal").map (·.status) = some .completed ∧
    c.shared.changes "withdrawal" = [(.processing, .completed)] ∧
    ∀ c', (withdrawalServer withdrawalConfig).Run Guarded c c' →
      (c'.shared.withdrawal "withdrawal").map (·.status) = some .completed := by
  have ⟨c, r, hc⟩ := System.exists_run_of_play (C := Guarded) (S := withdrawalServer withdrawalConfig)
    (c := ⟨sampleWithdrawals, []⟩)
    (p := fun c => (c.shared.withdrawal "withdrawal").map (·.status) = some .completed ∧
      c.shared.changes "withdrawal" = [(.processing, .completed)]) (reporting 0) (by decide +kernel)
  have ⟨hs, hc⟩ := of_decide_eq_true hc
  refine ⟨c, hs, hc, fun c' r' => ?_⟩
  have ⟨w, hw, hs⟩ := Option.map_eq_some_iff.mp hs
  have ⟨w', _, hw', _, _, ht⟩ := (withdrawal_changes_audited r "withdrawal").2 w hw c' r'
  rw [hw', Option.map_some, (ht (hs ▸ rfl)).1, hs]

-- A poll, which has read the withdrawal before, fails once more.
def polling : List (Label WithdrawalChoice Time WithdrawalRequest) :=
  .flatten [
    [.spawn .poll], observing 0 2,
    Label.acts 0 [.toml ⟨"https://anchor/sep24", "https://anchor/auth"⟩,
      .polled (.failure "Anchor request timed out" .transient)]
  ]

-- Its last attempt being used up, the withdrawal is marked as failed, although it is completed by now.
def exhausting : List (Label WithdrawalChoice Time WithdrawalRequest) :=
  Label.acts 0 [.delay 0] ++ observing 0 5

theorem completed_withdrawal_fails : ∃ c c' : WithdrawalConfig,
    (withdrawalServer withdrawalConfig).Run (fun _ _ => True) ⟨sampleWithdrawals, []⟩ c ∧
    (withdrawalServer withdrawalConfig).Run (fun _ _ => True) c c' ∧
    (c.shared.withdrawal "withdrawal").map (·.status) = some .completed ∧
    (c'.shared.withdrawal "withdrawal").map (·.status) = some .failed ∧
    c.shared.changes "withdrawal" = [(.processing, .completed)] ∧
    c'.shared.changes "withdrawal" = [(.processing, .completed)] := by
  have ⟨c, c', r, r', hc⟩ := System.exists_later_of_play (C := fun _ _ => True) (B := fun _ _ => True)
    (S := withdrawalServer withdrawalConfig) (c := ⟨sampleWithdrawals, []⟩)
    (p := fun c c' => (c.shared.withdrawal "withdrawal").map (·.status) = some .completed ∧
      (c'.shared.withdrawal "withdrawal").map (·.status) = some .failed ∧
      c.shared.changes "withdrawal" = [(.processing, .completed)] ∧
      c'.shared.changes "withdrawal" = [(.processing, .completed)]) (polling ++ reporting 1) exhausting
    (by decide +kernel)
  exact ⟨c, c', r, r', of_decide_eq_true hc⟩

end Mergepay.Withdrawals
