import Mergepay.Money.Canonical
import Mergepay.Treasury.Store

namespace Mergepay.Treasury

open Concurrency

-- The rows that are inserted, and the updates that are made, by a list of actions.

namespace Action

def approval? : Action → Option TreasuryApproval
  | createApproval row => some row
  | _                  => none

def proposal? : Action → Option (String × ProposalData)
  | updateProposal id data => some (id, data)
  | _                      => none

def signature? : Action → Option TreasurySignature
  | createSignature row => some row
  | _                   => none

def txProposal? : Action → Option (String × TxProposalData)
  | updateTxProposal id data => some (id, data)
  | _                        => none

def transaction? : Action → Option (String × TransactionData)
  | updateTransaction id data => some (id, data)
  | _                         => none

def auditLog? : Action → Option AuditLog
  | createAuditLog row => some row
  | _                  => none

def Submits : Action → Prop
  | submitSigned _ => True
  | _              => False

end Action

def updateProposals (l : List TreasuryProposal) (u : String × ProposalData) : List TreasuryProposal :=
  Table.update (·.id = u.1) (·.set u.2) l

def updateTxProposals (l : List TreasuryTxProposal) (u : String × TxProposalData) :
    List TreasuryTxProposal :=
  Table.update (·.id = u.1) (·.set u.2) l

def updateTransactions (l : List TreasuryTransaction) (u : String × TransactionData) :
    List TreasuryTransaction :=
  Table.update (·.id = u.1) (·.set u.2) l

abbrev TxLog :=
  Log Action Action.Answer Failure

section Views

variable {D : Deps} {l : TxLog} {s : Store}

-- What the actions of a log do to a table.
theorem foldl_effect {γ β : Type} {g : Store → γ} {f : γ → β → γ} {w : Action → Option β}
    (h : ∀ a s, g (effect a s) = (w a).elim (g s) (f (g s))) (as : List Action) (s : Store) :
    g (as.foldl (fun s a => effect a s) s) = (as.filterMap w).foldl f (g s) := by
  induction as generalizing s with
  | nil          => rfl
  | cons a as hi =>
    rw [List.foldl_cons, hi, h]
    cases hw : w a with
    | none   => simp [hw]
    | some b => simp [hw]

theorem foldl_append_singleton {α : Type} (l l' : List α) :
    l'.foldl (fun l a => l ++ [a]) l = l ++ l' := by
  induction l' generalizing l with
  | nil          => simp
  | cons a l' hi => simp [hi]

theorem view_approvals : ((database D).view l s).approvals =
    s.approvals ++ l.performed.filterMap Action.approval? := by
  rw [Database.view_eq, ← foldl_append_singleton]
  exact foldl_effect (fun a _ => by cases a <;> rfl) _ _

theorem view_proposals : ((database D).view l s).proposals =
    (l.performed.filterMap Action.proposal?).foldl updateProposals s.proposals := by
  rw [Database.view_eq]
  exact foldl_effect (fun a _ => by cases a <;> rfl) _ _

theorem view_signatures : ((database D).view l s).signatures =
    s.signatures ++ l.performed.filterMap Action.signature? := by
  rw [Database.view_eq, ← foldl_append_singleton]
  exact foldl_effect (fun a _ => by cases a <;> rfl) _ _

theorem view_txProposals : ((database D).view l s).txProposals =
    (l.performed.filterMap Action.txProposal?).foldl updateTxProposals s.txProposals := by
  rw [Database.view_eq]
  exact foldl_effect (fun a _ => by cases a <;> rfl) _ _

theorem view_transactions : ((database D).view l s).transactions =
    (l.performed.filterMap Action.transaction?).foldl updateTransactions s.transactions := by
  rw [Database.view_eq]
  exact foldl_effect (fun a _ => by cases a <;> rfl) _ _

theorem view_auditLogs : ((database D).view l s).auditLogs =
    s.auditLogs ++ l.performed.filterMap Action.auditLog? := by
  rw [Database.view_eq, ← foldl_append_singleton]
  exact foldl_effect (fun a _ => by cases a <;> rfl) _ _

end Views

-- Nothing is written to a table by the actions that are about something else.
theorem nothing_written {β : Type} {w : Action → Option β} {l : TxLog}
    (h : ∀ e ∈ l, w e.action = none) : l.performed.filterMap w = [] :=
  List.filterMap_eq_nil_iff.mpr fun _ ha =>
    have ⟨e, he, ha⟩ := Log.mem_performed ha
    ha ▸ h e he

-- What is in the log of a program that is done.

theorem act_done {v : a.Answer} (h : (act a).After l (.done v)) : l = [⟨a, .ok v⟩] :=
  h.of_perform

theorem act_fail (h : (act a).After l (.fail e)) : l = [⟨a, .error e⟩] :=
  h.of_perform_fail

theorem act_call {a b : Action} {k : Except Failure b.Answer → Tx a.Answer}
    (h : (act a).After l (.call b k)) : l = [] ∧ b = a := by
  generalize hq : Prog.call b k = q at h
  cases h with
  | nil =>
    cases hq
    exact ⟨rfl, rfl⟩
  | @cons _ r _ _ _ h =>
    cases r with
    | ok v    => cases hq.trans h.of_done.2
    | error e => cases hq.trans h.of_fail.2

theorem act_avoids {P : Action → Prop} (h : ¬P a) : (act a).Avoids P :=
  .perform h

theorem lift_avoids {P : Action → Prop} (x : Except Failure α) : (lift x).Avoids P := by
  cases x with
  | ok a    => exact .done a
  | error e => exact .fail e

theorem lift_done {x : Except Failure α} (h : (lift x).After l (.done v)) : l = [] ∧ x = .ok v := by
  cases x with
  | ok a =>
    have ⟨hl, hv⟩ := h.of_done
    cases hv
    exact ⟨hl, rfl⟩
  | error e => exact h.not_fail.elim

theorem auditTx_done (h : (auditTx params).After l (.done ())) :
    l = [⟨.createAuditLog (auditData params), .ok ()⟩] :=
  act_done h

theorem auditMultisigActionTx_done (h : (auditMultisigActionTx params).After l (.done ())) :
    ∃ row : AuditLog, l = [⟨.createAuditLog row, .ok ()⟩] ∧ row.action = params.action :=
  ⟨_, auditTx_done h, rfl⟩

section Answers

variable {D : Deps} {log : TxLog} {I : Store → Prop} {id : String}

-- What the answers of queries are about.

def Action.isRemote : Action → Bool
  | loadAccount _ | submitSigned _ | submitPayment _ _ | submitMultisigPayment _ _ _ => true
  | _ => false

theorem answer_plain {a : Action} {v : a.Answer} (h : answer D a x s = some (.ok v))
    (ha : a.isRemote = false) : answer D a .plain s = some (.ok v) := by
  cases x with
  | plain => exact h
  | lost  => cases a <;> cases h
  | account _ | accepted _ | rejected _ => cases a <;> cases h <;> cases ha

theorem found {a : Action} {v : a.Answer} (h : (database D).Genuine I log)
    (hm : ⟨a, .ok v⟩ ∈ log) (ha : a.isRemote = false) :
    ∃ s l, I s ∧ answer D a .plain ((database D).view l s) = some (.ok v) := by
  have ⟨l, _, x, s, _, hi, _, hv⟩ := h.answered hm
  exact ⟨s, l, hi, answer_plain hv ha⟩

theorem found_proposal {p : TreasuryProposal} (h : (database D).Genuine I log)
    (hm : ⟨.findProposal id, .ok (some p)⟩ ∈ log) :
    ∃ s l, I s ∧ ((database D).view l s).proposal id = some p :=
  have ⟨s, l, hi, ha⟩ := found h hm rfl
  ⟨s, l, hi, Except.ok.inj (Option.some.inj ha)⟩

theorem found_txProposal {p : TreasuryTxProposal} (h : (database D).Genuine I log)
    (hm : ⟨.findTxProposal id, .ok (some p)⟩ ∈ log) :
    ∃ s l, I s ∧ ((database D).view l s).txProposal id = some p :=
  have ⟨s, l, hi, ha⟩ := found h hm rfl
  ⟨s, l, hi, Except.ok.inj (Option.some.inj ha)⟩

theorem publicKey_of_mem {s : Store} {p : GroupMember → Bool} (h : m ∈ s.memberKeys D p) :
    m.publicKey = D.publicKeyOf m.userId := by
  have ⟨_, _, he⟩ := List.mem_map.mp h
  rw [← he]

theorem found_members (h : (database D).Genuine I log) (hm : ⟨.findMembers id, .ok ms⟩ ∈ log) :
    ∀ m ∈ ms, m.publicKey = D.publicKeyOf m.userId := by
  have ⟨s, l, _, ha⟩ := found h hm rfl
  have ha : Store.memberKeys D _ _ = ms := Except.ok.inj (Option.some.inj ha)
  exact ha ▸ fun _ hm => publicKey_of_mem hm

theorem found_admins (h : (database D).Genuine I log) (hm : ⟨.findAdmins id, .ok ms⟩ ∈ log) :
    ∀ m ∈ ms, m.publicKey = D.publicKeyOf m.userId := by
  have ⟨s, l, _, ha⟩ := found h hm rfl
  have ha : Store.memberKeys D _ _ = ms := Except.ok.inj (Option.some.inj ha)
  exact ha ▸ fun _ hm => publicKey_of_mem hm

end Answers

-- A treasury whose users are named by their keys. An envelope is signed by the user it is named after.

def sampleTransaction : Stellar.Transaction := {
  source     := "treasury"
  sequence   := "1"
  fee        := 100
  timeBounds := none
  memo       := .none
  operations := []
  signatures := []
}

def sampleSdk : Sdk := {
  fromXDR       := fun _ => some (.transaction sampleTransaction)
  hash          := fun _ => "hash"
  verify        := fun publicKey _ signature => signature = publicKey
  signatureHint := some
  decorated     := fun xdr => if xdr = "" then [] else [{ hint := xdr, signature := xdr }]
  parseError    := fun _ => "Invalid transaction"
  toXDR         := fun _ signatures => .join (signatures.map (·.signature))
}

def sampleDeps : Deps := { Money.sampleRegistry with
  sdk                          := sampleSdk
  publicKeyOf                  := id
  publicKeyOf_injective        := Function.injective_id
  assertTreasuryEnvelopePolicy := fun _ _ _ => .ok ()
}

def sampleMembers : List GroupMember :=
  [⟨"group", "alice", "admin"⟩, ⟨"group", "bob", "admin"⟩]

end Mergepay.Treasury
