import Mergepay.Theorems.Approvals
import Mergepay.Theorems.Weight
import Mergepay.Treasury.Confirmation

namespace Mergepay.Treasury

open Concurrency

-- The requests that submit an envelope to Stellar.
inductive Request
  | proposal (args : SubmitSignaturesArgs)
  | collector (args : SubmitSignatureArgs)
  | confirmation (args : ConfirmArgs)

def treasuryRequest (D : Deps) : Request → Tx Unit
  | .proposal args     => proposalRequest D args
  | .collector args    => collectorRequest D args
  | .confirmation args => (confirmOperation D args).bind fun _ => .done ()

abbrev treasurySystem (D : Deps) :=
  (database D).system env (treasuryRequest D)

def AuditAction.isRejection : AuditAction → Bool
  | treasuryConfirmFailed | treasuryProposalFailed | treasuryTxProposalFailed => true
  | _ => false

-- Transactions of the treasury have no column for a reason.
def Store.Failed (s : Store) : Request → Prop
  | .proposal args     => ∃ p ∈ s.proposals,
    p.id = args.proposalId ∧ p.status = .failed ∧ p.failureReason.isSome
  | .collector args    => ∃ p ∈ s.txProposals,
    p.id = args.proposalId ∧ p.status = .failed ∧ p.failureReason.isSome
  | .confirmation args => ∃ t ∈ s.transactions, t.id = args.id ∧ t.status = .failed

def Request.rejection : Request → AuditAction × String
  | proposal args     => (.treasuryProposalFailed, args.proposalId)
  | collector args    => (.treasuryTxProposalFailed, args.proposalId)
  | confirmation args => (.treasuryConfirmFailed, args.id)

-- Since the store was `s₀`, a row has been added to the audit trail about the failure of a request.
def Store.FailureAudited (s₀ s : Store) (req : Request) : Prop :=
  ∃ row ∈ s.auditLogs.drop s₀.auditLogs.length, (row.action, row.entityId) = req.rejection

-- The signatures of a request are stored. Whoever signs a proposal also approves of it.
def Store.Retains (D : Deps) (s : Store) : Request → Prop
  | .proposal args  => ∀ k ∈ args.signers D,
    (∃ p ∈ s.proposals, p.id = args.proposalId ∧ k ∈ StoredSignature.keys p.signatures) ∧
    ∃ a ∈ s.approvals, a.proposalId = args.proposalId ∧ D.publicKeyOf a.userId = k
  | .collector args => ∀ d ∈ D.sdk.decorated args.signedXdr, ∃ x ∈ s.signatures,
    x.proposalId = args.proposalId ∧ D.sdk.signatureHint x.signerPublicKey = some d.hint
  | .confirmation _ => True

structure Store.Recorded (D : Deps) (s₀ s : Store) (req : Request) : Prop where
  failed   : s.Failed req
  audited  : s₀.FailureAudited s req
  retained : s.Retains D req

-- Actions that may leave a row in its failed status, or which state that a request has failed.
def Action.Fails : Action → Prop
  | updateProposal _ data    => data.status.all (· = .failed)
  | updateTxProposal _ data  => data.status.all (· = .failed)
  | updateTransaction _ data => data.status.all (· = .failed)
  | createAuditLog row       => row.action.isRejection
  | _                        => False

section

variable {D : Deps}

theorem auditTx_avoids {params : AuditParams} (h : params.action.isRejection = false) :
    (auditTx params).Avoids Action.Fails :=
  act_avoids <| by simp [Action.Fails, auditData, h]

theorem auditMultisigActionTx_avoids {params : MultisigAuditParams}
    (h : params.action.isRejection = false) : (auditMultisigActionTx params).Avoids Action.Fails :=
  auditTx_avoids h

theorem submitMerged_avoids {p : TreasuryProposal} {tx : Stellar.Transaction} {xdr : String} {n : Nat}
    {key user : Option String} : (submitMerged p tx xdr n key user).Avoids Action.Fails := by
  refine .bind (act_avoids id) fun hash => .bind (act_avoids ?_) fun _ => ?_
  · simp [Action.Fails]
  · exact .bind (auditMultisigActionTx_avoids rfl) fun _ => .done _

-- Recording a rejection is the end of a request.
theorem mergeAndSubmit_doneWithout {id : String} {vs : List StoredSignature}
    {key user : Option String} : (mergeAndSubmit D id vs key user).DoneWithout Action.Fails := by
  refine .bind (.of_avoids <| act_avoids False.elim) fun p => ?_
  cases p with
  | none   => exact .of_avoids (.fail _)
  | some p =>
    refine .bind (.of_avoids <| lift_avoids _) fun tx => ?_
    refine .bind (.of_avoids <| .attempt submitMerged_avoids) fun r => ?_
    cases r with
    | ok result => exact .of_avoids (.done result)
    | error e   => exact .of_not_done fun _ _ => recordRejection_not_done

theorem recordSignatures_doneWithout {args : SubmitSignaturesArgs} {g : Signing}
    {vs : List StoredSignature} : (recordSignatures D args g vs).DoneWithout Action.Fails := by
  refine .bind (.of_avoids <| act_avoids ?_) fun _ => ?_
  · simp only [Action.Fails]
    split <;> simp
  refine .bind (.of_avoids <| .forEach (fun _ => auditMultisigActionTx_avoids rfl) _) fun _ => ?_
  split
  · exact mergeAndSubmit_doneWithout
  · exact .of_avoids (.done _)

theorem submitSignatures_doneWithout {args : SubmitSignaturesArgs} :
    (submitSignatures D args).DoneWithout Action.Fails := by
  refine .bind (.of_avoids <| act_avoids id) fun p => ?_
  cases p with
  | none   => exact .of_avoids (.fail _)
  | some p =>
    refine .bind (.of_avoids <| lift_avoids _) fun _ => .bind (.of_avoids <| lift_avoids _) fun _ => ?_
    refine .bind (.of_avoids <| act_avoids id) fun _ => .bind (.of_avoids <| act_avoids id) fun _ => ?_
    exact .bind (.of_avoids <| collectSignatures_avoids fun _ => id) fun _ => recordSignatures_doneWithout

theorem gatherSignatures_avoids_fails {args : SubmitSignatureArgs} :
    (gatherSignatures D args).Avoids Action.Fails := by
  refine .bind (act_avoids id) fun p => ?_
  cases p with
  | none   => exact .fail _
  | some p =>
    refine .bind (lift_avoids _) fun _ => .bind (act_avoids id) fun _ => .bind (act_avoids id) fun _ => ?_
    refine .bind (lift_avoids _) fun _ => .bind (act_avoids id) fun _ => .bind (lift_avoids _) fun _ => ?_
    refine .bind (act_avoids id) fun _ => .bind (lift_avoids _) fun new => ?_
    refine .bind (.forEach (fun s => .bind (.attempt (act_avoids id)) fun r => ?_) new) fun _ => ?_
    · cases r with
      | ok v    => exact auditMultisigActionTx_avoids rfl
      | error e =>
        simp only
        split
        · exact .done ()
        · exact .fail e
    · exact .bind (act_avoids id) fun _ => .done _

theorem submitSignature_doneWithout {args : SubmitSignatureArgs} :
    (submitSignature D args).DoneWithout Action.Fails := by
  refine .bind (.of_avoids gatherSignatures_avoids_fails) fun g => ?_
  simp only [decideThreshold]
  split
  case isTrue =>
    exact .of_avoids <| .bind (act_avoids <| by simp [Action.Fails]) fun _ => .done _
  case isFalse =>
    refine .bind (.of_avoids <| act_avoids <| by simp [Action.Fails]) fun _ => ?_
    refine .bind (.of_avoids <| auditMultisigActionTx_avoids rfl) fun _ => ?_
    refine .bind (.of_avoids <| lift_avoids _) fun base => ?_
    refine .bind (.of_avoids <| .attempt ?_) fun r => ?_
    · refine .bind (act_avoids id) fun hash => .bind (act_avoids <| by simp [Action.Fails]) fun _ => ?_
      exact .bind (auditMultisigActionTx_avoids rfl) fun _ => .done _
    · cases r with
      | ok result => exact .of_avoids (.done result)
      | error e   => exact .of_not_done fun _ _ => recordFailure_not_done

theorem recordConfirmFailed_not_done {args : ConfirmArgs} {fresh : TreasuryTransaction} {e : Failure}
    (h : (recordConfirmFailed args fresh e).After l (.done r)) : False := by
  obtain ⟨_, _, _, _, _, h⟩ := h.bind_done
  obtain ⟨_, _, _, _, _, h⟩ := h.bind_done
  exact h.not_fail

theorem submitConfirmation_avoids {args : ConfirmArgs} {fresh : TreasuryTransaction} :
    (submitConfirmation D args fresh).Avoids Action.Fails := by
  refine .bind ?_ fun _ => ?_
  · simp only [checkIntent]
    split
    · exact .done ()
    · exact .bind (act_avoids id) fun _ => lift_avoids _
  · split <;> exact act_avoids id

theorem confirmOperation_doneWithout {args : ConfirmArgs} :
    (confirmOperation D args).DoneWithout Action.Fails := by
  refine .bind (.of_avoids <| act_avoids id) fun fresh => ?_
  cases fresh with
  | none       => exact .of_avoids (.fail _)
  | some fresh =>
    simp only
    split
    case isTrue => exact .of_avoids (.done _)
    refine .bind (.of_avoids <| .attempt submitConfirmation_avoids) fun r => ?_
    cases r with
    | error e => exact .of_not_done fun _ _ => recordConfirmFailed_not_done
    | ok hash =>
      refine .of_avoids <| .bind (act_avoids <| by simp [Action.Fails]) fun _ => ?_
      exact .bind (auditTx_avoids rfl) fun _ => .done _

theorem treasuryRequest_doneWithout (req : Request) :
    (treasuryRequest D req).DoneWithout Action.Fails := by
  cases req with
  | proposal args     => exact .bind submitSignatures_doneWithout fun _ => .of_avoids (.done ())
  | collector args    => exact .bind submitSignature_doneWithout fun _ => .of_avoids (.done ())
  | confirmation args => exact .bind confirmOperation_doneWithout fun _ => .of_avoids (.done ())

-- A row that no update could have led to has been there before.
theorem mem_of_mem_foldl_update {α β : Type} {P : α → Prop} {key : α → String} {set : α → β → α}
    {us : List (String × β)} (hu : ∀ u ∈ us, ∀ a, ¬P (set a u.2)) {rows : List α} {q : α}
    (hq : q ∈ us.foldl (fun l u => Table.update (key · = u.1) (set · u.2) l) rows) (hp : P q) :
    q ∈ rows := by
  induction us generalizing rows with
  | nil => exact hq
  | cons u us hi =>
    have hq := hi (fun u hu' => hu u <| .tail _ hu') hq
    have ⟨row, hr, he⟩ := Table.mem_update.mp hq
    split at he
    case isTrue  => exact (hu u List.mem_cons_self row (he ▸ hp)).elim
    case isFalse => exact he ▸ hr

-- The store has not learned about any failure since it was `s₀`.
structure Store.Unaware (s₀ s : Store) : Prop where
  proposals    : ∀ p ∈ s.proposals, p.status = .failed → p ∈ s₀.proposals
  txProposals  : ∀ p ∈ s.txProposals, p.status = .failed → p ∈ s₀.txProposals
  transactions : ∀ t ∈ s.transactions, t.status = .failed → t ∈ s₀.transactions
  auditLogs    : ∃ new, s.auditLogs = s₀.auditLogs ++ new ∧ ∀ row ∈ new, row.action.isRejection = false

variable {log : TxLog} {s s₀ : Store}

theorem Store.Unaware.refl : s.Unaware s where
  proposals    := fun _ hp _ => hp
  txProposals  := fun _ hp _ => hp
  transactions := fun _ ht _ => ht
  auditLogs    := ⟨[], by simp, by simp⟩

-- A column that is set to something else.
theorem getD_ne [DecidableEq α] {a b : α} {o : Option α} (h : ¬o.all (· = a)) : o.getD b ≠ a := by
  cases o with
  | none   => simp at h
  | some c => simpa using h

theorem performed_not_fails (h : ∀ e ∈ log, ¬e.action.Fails) {w : Action → Option β} {b : β}
    (hb : b ∈ log.performed.filterMap w) : ∃ a : Action, w a = some b ∧ ¬a.Fails := by
  have ⟨a, ha, hw⟩ := List.mem_filterMap.mp hb
  have ⟨e, he, hea⟩ := Log.mem_performed ha
  exact ⟨a, hw, hea ▸ h e he⟩

theorem Store.Unaware.view (hs : s₀.Unaware s) (h : ∀ e ∈ log, ¬e.action.Fails) :
    s₀.Unaware ((database D).view log s) where
  proposals := fun p hp hf => by
    rw [view_proposals] at hp
    refine hs.proposals p (mem_of_mem_foldl_update (P := (·.status = .failed)) (fun u hu row => ?_) hp hf) hf
    have ⟨a, ha, hn⟩ := performed_not_fails h hu
    cases a <;> cases ha
    exact getD_ne hn
  txProposals := fun p hp hf => by
    rw [view_txProposals] at hp
    refine hs.txProposals p (mem_of_mem_foldl_update (P := (·.status = .failed)) (fun u hu row => ?_)
      hp hf) hf
    have ⟨a, ha, hn⟩ := performed_not_fails h hu
    cases a <;> cases ha
    exact getD_ne hn
  transactions := fun t ht hf => by
    rw [view_transactions] at ht
    refine hs.transactions t (mem_of_mem_foldl_update (P := (·.status = .failed)) (fun u hu row => ?_)
      ht hf) hf
    have ⟨a, ha, hn⟩ := performed_not_fails h hu
    cases a <;> cases ha
    exact getD_ne hn
  auditLogs := by
    have ⟨new, hnew, hn⟩ := hs.auditLogs
    rw [view_auditLogs, hnew, List.append_assoc]
    refine ⟨_, rfl, fun row hr => ?_⟩
    rcases List.mem_append.mp hr with hr | hr
    case inl => exact hn row hr
    case inr =>
      have ⟨a, ha, hn⟩ := performed_not_fails h hr
      cases a <;> cases ha
      simpa [Action.Fails] using hn

theorem unaware_keeps :
    (database D).Keeps env (treasuryRequest D) (fun _ _ => True) (Store.Unaware s₀) where
  commit := fun {req _ _} hs _ _ ha _ => hs.view (treasuryRequest_doneWithout req _ _ ha)
  env    := fun hs he => by
    obtain ⟨_, _, rfl⟩ := env_eq_some he
    exact ⟨hs.proposals, hs.txProposals, hs.transactions, hs.auditLogs⟩

-- In no run is the failure of a request ever recorded, whatever becomes of its envelope.
theorem rejection_unrecorded {c : TxConfig Request}
    (r : (treasurySystem D).Run (fun _ _ => True) ⟨s, []⟩ c) (req : Request) :
    (c.shared.Failed req → s.Failed req) ∧ ¬s.Recorded D c.shared req := by
  have h : s.Unaware c.shared := unaware_keeps.law r .refl
  refine ⟨fun hf => ?_, fun hr => ?_⟩
  · cases req with
    | proposal args =>
      have ⟨p, hp, hid, hst, hreason⟩ := hf
      exact ⟨p, h.proposals p hp hst, hid, hst, hreason⟩
    | collector args =>
      have ⟨p, hp, hid, hst, hreason⟩ := hf
      exact ⟨p, h.txProposals p hp hst, hid, hst, hreason⟩
    | confirmation args =>
      have ⟨t, ht, hid, hst⟩ := hf
      exact ⟨t, h.transactions t ht hst, hid, hst⟩
  · have ⟨new, hnew, hn⟩ := h.auditLogs
    have ⟨row, hrow, ha⟩ := hr.audited
    rw [hnew, List.drop_left] at hrow
    have ha : row.action = req.rejection.1 := congrArg Prod.fst ha
    have hrej : req.rejection.1.isRejection = true := by cases req <;> rfl
    rw [← ha, hn row hrow] at hrej
    cases hrej

end

-- Stellar rejects an envelope of each kind, all of which have been signed by alice.

def rejectedRequests : List Request := [
  .proposal (signedBy "alice"),
  .collector (collectedFrom "alice"),
  .confirmation {
    id               := "deposit"
    userId           := "alice"
    stellarPublicKey := "alice"
    source           := "alice"
    destination      := "treasury"
    multisig         := none
    signedXdr        := "alice"
  }
]

def rejectionStore : Store := {
  members      := sampleMembers
  proposals    := [{ sampleProposal with threshold := 1 }]
  txProposals  := [{ sampleTxProposal with requiredWeight := 1 }]
  transactions := [{
    id          := "deposit"
    shortCode   := "code"
    groupId     := "group"
    direction   := .deposit
    amount      := "1"
    assetCode   := "XLM"
    assetIssuer := none
  }]
}

def soleAccount : AccountSnapshot := {
  exists_    := true
  signers    := [⟨"alice", 1⟩]
  thresholds := ⟨1, 1, 1⟩
}

def stellarRejection : Failure := .upstream "tx_failed"

-- The rejection is followed by the update of the row and by the audit row.
def rejecting (n : Nat) : List (Label Choice Event Request) :=
  Label.acts n [.rejected stellarRejection, .plain, .plain]

def rejectedRun : List (Label Choice Event Request) :=
  .flatten [
    rejectedRequests.map .spawn,
    Label.acts 0 (List.replicate 7 .plain), rejecting 0,
    Label.acts 1 [.plain, .plain, .account soleAccount, .plain, .plain, .plain, .plain, .plain, .plain, .plain],
    rejecting 1, Label.acts 2 [.plain], rejecting 2
  ]

def reportedErrors : List Failure := [
  .upstream "Stellar rejected the multisig transaction: tx_failed",
  .upstream "Stellar rejected the multisig transaction: tx_failed",
  .upstream "tx_failed"
]

-- Afterwards the store is the same as before.
theorem exists_rejectedRun : ∃ c : TxConfig Request,
    (treasurySystem sampleDeps).Run (fun _ _ => True) ⟨rejectionStore, []⟩ c ∧
    c.procs.map (·.raised) = reportedErrors.map some ∧ c.shared = rejectionStore := by
  have ⟨c, r, hc⟩ := System.exists_run_of_play (C := fun _ _ => True)
    (S := treasurySystem sampleDeps) (c := ⟨rejectionStore, []⟩)
    (p := fun c => c.procs.map (·.raised) = reportedErrors.map some ∧ c.shared = rejectionStore)
    rejectedRun (by decide +kernel)
  exact ⟨c, r, of_decide_eq_true hc⟩

theorem rejection_unrecorded_sample : ∃ c : TxConfig Request,
    c.procs.map (·.raised) = reportedErrors.map some ∧
    ∀ req ∈ rejectedRequests, ¬rejectionStore.Recorded sampleDeps c.shared req :=
  have ⟨c, r, hr, _⟩ := exists_rejectedRun
  ⟨c, hr, fun req _ => (rejection_unrecorded r req).2⟩

-- Neither is a row marked as failed, nor is there an audit row, nor is a signature retained.
theorem rejection_lost : ∃ c : TxConfig Request,
    (treasurySystem sampleDeps).Run (fun _ _ => True) ⟨rejectionStore, []⟩ c ∧
    c.procs.map (·.raised) = reportedErrors.map some ∧
    (∀ req ∈ rejectedRequests, ¬c.shared.Failed req ∧ ¬rejectionStore.FailureAudited c.shared req) ∧
    ¬c.shared.Retains sampleDeps (.proposal (signedBy "alice")) ∧
    ¬c.shared.Retains sampleDeps (.collector (collectedFrom "alice")) := by
  have ⟨c, r, hr, hc⟩ := exists_rejectedRun
  refine ⟨c, r, hr, ?_⟩
  rw [hc]
  refine ⟨?_, fun h => ?_, fun h => ?_⟩
  · simp [rejectedRequests, Store.Failed, Store.FailureAudited, rejectionStore, sampleProposal,
      sampleTxProposal]
  · have ⟨_, _, ha, _⟩ := h "alice" (by decide)
    cases ha
  · have ⟨_, hx, _⟩ := h ⟨"alice", "alice"⟩ (by decide)
    cases hx

end Mergepay.Treasury
