import Mergepay.Treasury.Lifecycle

namespace Mergepay.Treasury

open Concurrency Stellar

-- The part of a lifecycle that has been described before: a request that signs a proposal.

def coreLog (l : TxLog) : LifecycleLog :=
  l.map fun e => ⟨.core e.action, e.answer⟩

section

variable {D : Deps} {p : Tx α} {l : TxLog} {L : LifecycleLog} {q : LifecycleTx α} {s : LifecycleStore}

theorem coreLog_append {l₁ l₂ : TxLog} : coreLog (l₁ ++ l₂) = coreLog l₁ ++ coreLog l₂ :=
  List.map_append

theorem coreLog_performed : (coreLog l).performed = l.performed.map .core := by
  induction l with
  | nil          => rfl
  | cons e l hi =>
    obtain ⟨a, r⟩ := e
    cases r with
    | ok v    => exact congrArg (LifecycleAction.core a :: ·) hi
    | error e => exact hi

theorem view_coreLog : (lifecycleDatabase D).view (coreLog l) s =
    { s with toStore := (database D).view l s.toStore } := by
  induction l generalizing s with
  | nil          => rfl
  | cons e l hi =>
    obtain ⟨a, r⟩ := e
    cases r with
    | ok v    => exact hi (s := { s with toStore := effect a s.toStore })
    | error e => exact hi

theorem embed_after (h : (embed p).After L q) :
    ∃ l p', L = coreLog l ∧ q = embed p' ∧ p.After l p' := by
  induction p generalizing L with
  | done a =>
    obtain ⟨rfl, rfl⟩ := h.of_done
    exact ⟨[], .done a, rfl, rfl, .nil⟩
  | fail e =>
    obtain ⟨rfl, rfl⟩ := h.of_fail
    exact ⟨[], .fail e, rfl, rfl, .nil⟩
  | call a k hi =>
    cases h with
    | nil    => exact ⟨[], .call a k, rfl, rfl, .nil⟩
    | cons h =>
      obtain ⟨l, p', rfl, hq, hp⟩ := hi _ h
      exact ⟨⟨a, _⟩ :: l, p', rfl, hq, .cons hp⟩

theorem embed_done {v : α} (h : (embed p).After L (.done v)) :
    ∃ l, L = coreLog l ∧ p.After l (.done v) := by
  obtain ⟨l, p', hl, hq, hp⟩ := embed_after h
  cases p' with
  | done a =>
    cases hq
    exact ⟨l, hl, hp⟩
  | fail | call => cases hq

theorem embed_call {a : LifecycleAction} {k : Except Failure a.Answer → LifecycleTx α}
    (h : (embed p).After L (.call a k)) :
    ∃ l b k', L = coreLog l ∧ a = .core b ∧ p.After l (.call b k') := by
  obtain ⟨l, p', hl, hq, hp⟩ := embed_after h
  cases p' with
  | done | fail => cases hq
  | call b k' =>
    cases hq
    exact ⟨l, b, k', hl, rfl, hp⟩

end

-- Signatures are only attached to an envelope if they verify, and those which have been stored do.

structure StoredSignature.Valid (D : Deps) (hash : String) (t : StoredSignature) : Prop where
  hint     : (D.sdk.signatureHint t.publicKey).isSome
  verified : D.sdk.verify t.publicKey hash t.signature = true

structure Collected.Valid (D : Deps) (hash : String) (c : Collected) : Prop where
  existing : c.existingKeys = StoredSignature.keys c.verified
  once     : (StoredSignature.keys c.verified).Nodup
  valid    : ∀ t ∈ c.verified, t.Valid D hash

section

variable {D : Deps} {g : Signing} {c c' : Collected} {l : TxLog} {publicKey signature hash : String}

theorem Collected.Valid.push (h : c.Valid D hash) (hn : publicKey ∉ c.existingKeys)
    (hv : StoredSignature.Valid D hash { publicKey, signature }) :
    (c.push publicKey signature).Valid D hash where
  existing := by simp [Collected.push, StoredSignature.keys, h.existing]
  once     := by
    rw [h.existing] at hn
    simp only [Collected.push, StoredSignature.keys, List.map_append, List.map_singleton]
    exact h.once.append (List.nodup_singleton _) (by simpa using hn)
  valid    := by
    intro t ht
    rcases List.mem_append.mp ht with ht | ht
    case inl => exact h.valid t ht
    case inr => exact List.mem_singleton.mp ht ▸ hv

theorem Collected.Valid.approve (h : c.Valid D hash) : (c.approve u).Valid D hash :=
  ⟨h.existing, h.once, h.valid⟩

theorem collectSignature_valid (hc : c.Valid D g.message)
    (h : (collectSignature D g c d).After l (.done c')) : c'.Valid D g.message := by
  simp only [collectSignature] at h
  split at h
  case h_1 =>
    cases h.of_done.2
    exact hc
  case h_2 publicKey hk =>
    split at h
    case isTrue =>
      cases h.of_done.2
      exact hc
    split at h
    case isTrue =>
      cases h.of_done.2
      exact hc
    case isFalse hn =>
    split at h
    case isTrue => exact h.not_fail.elim
    case isFalse hv =>
    have hm := List.find?_some hk
    simp only [decide_eq_true_eq] at hm
    have ht : StoredSignature.Valid D g.message { publicKey, signature := d.signature } :=
      ⟨by simp [hm], by simpa using hv⟩
    split at h
    case h_1 =>
      cases h.of_done.2
      exact hc.push hn ht
    case h_2 u _ =>
      obtain ⟨l₁, l₂, r, rfl, h₁, h₂⟩ := h.bind_done
      cases r with
      | ok v =>
        cases h₂.of_done.2
        exact (hc.push hn ht).approve
      | error e =>
        simp only at h₂
        split at h₂
        case isFalse => exact h₂.not_fail.elim
        case isTrue =>
          cases h₂.of_done.2
          exact hc

theorem collectSignatures_valid (hc : c.Valid D g.message)
    (h : (collectSignatures D g c ds).After l (.done c')) : c'.Valid D g.message := by
  induction ds generalizing c l with
  | nil =>
    cases h.of_done.2
    exact hc
  | cons d ds hi =>
    obtain ⟨l₁, l₂, c₁, rfl, h₁, h₂⟩ := h.bind_done
    exact hi (collectSignature_valid hc h₁) h₂

-- The signatures that are carried by the envelope of a proposal.
def mergedSignatures (D : Deps) (baseTx : Transaction) (stored : List StoredSignature)
    (base : List DecoratedSignature) : List DecoratedSignature :=
  stored.foldl (fun l s => addSignature D baseTx l s.publicKey s.signature) base

theorem addSignature_subset {tx : Transaction} {base : List DecoratedSignature} :
    base ⊆ addSignature D tx base publicKey signature := by
  unfold addSignature
  split
  · exact fun _ h => h
  · split
    · exact List.subset_append_left _ _
    · exact fun _ h => h

theorem mergedSignatures_subset {tx : Transaction} {stored : List StoredSignature}
    {base : List DecoratedSignature} : base ⊆ mergedSignatures D tx stored base := by
  induction stored generalizing base with
  | nil             => exact fun _ h => h
  | cons t stored hi => exact fun _ h => hi (addSignature_subset h)

theorem mem_mergedSignatures {tx : Transaction} {stored : List StoredSignature}
    {base : List DecoratedSignature} (hv : ∀ t ∈ stored, t.Valid D (D.sdk.hash tx)) (ht : t ∈ stored) :
    ∃ d ∈ mergedSignatures D tx stored base, d.signature = t.signature := by
  induction stored generalizing base with
  | nil              => cases ht
  | cons t' stored hi =>
    have ⟨hv', hvs⟩ := List.forall_mem_cons.mp hv
    cases ht with
    | head =>
      have ⟨hint, hh⟩ := Option.isSome_iff_exists.mp hv'.hint
      have hm : ⟨hint, t.signature⟩ ∈ addSignature D tx base t.publicKey t.signature := by
        simp [addSignature, hh, hv'.verified]
      have hm : ⟨hint, t.signature⟩ ∈ mergedSignatures D tx stored _ := mergedSignatures_subset hm
      exact ⟨_, hm, rfl⟩
    | tail _ ht => exact hi hvs ht

end

-- How an envelope comes to be submitted

-- An envelope that has been serialized is parsed as the same transaction with the same signatures.
structure Sdk.RoundTrips (sdk : Sdk) : Prop where
  parsed (tx : Transaction) (signatures : List DecoratedSignature) :
    ∃ tx', sdk.fromXDR (sdk.toXDR tx signatures) = some (.transaction tx') ∧ sdk.hash tx' = sdk.hash tx
  decorated (tx : Transaction) (signatures : List DecoratedSignature) :
    sdk.decorated (sdk.toXDR tx signatures) = signatures

section

variable {D : Deps} {l : TxLog} {args : SubmitSignaturesArgs} {xdr : String}
  {p p' : TreasuryProposal} {vs : List StoredSignature}

theorem auditSigned_avoids {g : Signing} {vs : List StoredSignature} :
    (Prog.forEach (fun s : StoredSignature => auditSigned g n s.publicKey) vs).Avoids Action.Submits :=
  .forEach (fun _ => act_avoids id) _

theorem submitMerged_call {p : TreasuryProposal} {k : Except Failure String → Tx ProposalResult}
    (h : (submitMerged p tx xdr' n key u).After l (.call (.submitSigned xdr) k)) : l = [] ∧ xdr = xdr' := by
  have hs : Action.Submits (.submitSigned xdr) := trivial
  rcases h.bind_call with ⟨_, h⟩ | ⟨_, _, _, _, _, h⟩
  case inl =>
    have ⟨hl, hx⟩ := act_call h
    cases hx
    exact ⟨hl, rfl⟩
  case inr =>
    exact (Prog.Avoids.bind (act_avoids id) (fun _ => .bind (act_avoids id) fun _ => .done _) _ _ _ h hs).elim

theorem mergeAndSubmit_call {id : String} {k : Except Failure String → Tx ProposalResult}
    (h : (mergeAndSubmit D id vs key u).After l (.call (.submitSigned xdr) k)) :
    ∃ p tx, l = [⟨.findProposal id, .ok (some p)⟩] ∧ newTransaction D p.xdr = .ok tx ∧
      xdr = D.sdk.toXDR tx (mergedSignatures D tx vs (D.sdk.decorated p.xdr)) := by
  have hs : Action.Submits (.submitSigned xdr) := trivial
  obtain ⟨l₁, _, p, rfl, h₁, k₁⟩ := Prog.Avoids.bind_call (act_avoids fun h => h) hs h
  cases p with
  | none   => cases k₁.of_fail.2
  | some p =>
    obtain ⟨l₂, _, tx, rfl, h₂, k₂⟩ := Prog.Avoids.bind_call (lift_avoids _) hs k₁
    have ⟨hl₂, htx⟩ := lift_done h₂
    rcases k₂.bind_call with ⟨_, h₃⟩ | ⟨_, _, r, _, _, h₃⟩
    case inl =>
      have ⟨_, h₃⟩ := h₃.attempt_call
      have ⟨hl₃, hx⟩ := submitMerged_call h₃
      rw [act_done h₁, hl₂, hl₃]
      exact ⟨p, tx, rfl, htx, hx⟩
    case inr =>
      cases r with
      | ok v    => cases h₃.of_done.2
      | error e =>
        exact (Prog.Avoids.bind (act_avoids fun h => h) (fun _ => .bind (act_avoids fun h => h)
          fun _ => .fail _) _ _ _ h₃ hs).elim

-- The signatures that a request has collected for the proposal that it read in the beginning.
structure Collection (D : Deps) (args : SubmitSignaturesArgs) (p : TreasuryProposal)
    (vs : List StoredSignature) (collected : TxLog) : Prop where
  checked : checkProposal p args.groupId = .ok ()
  entries : ∀ e ∈ collected, Action.proposal? e.action = none ∧ ¬e.action.Submits
  valid   : (StoredSignature.keys p.signatures).Nodup → (∀ t ∈ p.signatures, t.Valid D p.txHash) →
    (StoredSignature.keys vs).Nodup ∧ ∀ t ∈ vs, t.Valid D p.txHash
  hash    : envelopeHash D p.xdr = some p.txHash

-- What a request has done before it submits an envelope. Having recorded the signatures, it has read the
-- proposal once more.
structure Submission (D : Deps) (args : SubmitSignaturesArgs) (p p' : TreasuryProposal)
    (vs : List StoredSignature) (xdr : String) (collected recorded log : TxLog) : Prop
    extends Collection D args p vs collected where
  log      : log = (⟨.findProposal args.proposalId, .ok (some p)⟩ :: collected) ++
    ⟨.updateProposal p.id { signatures := some vs, status := some .submitted }, .ok ()⟩ ::
      (recorded ++ [⟨.findProposal p.id, .ok (some p')⟩])
  recorded : ∀ e ∈ recorded, Action.proposal? e.action = none
  enough   : p.threshold ≤ vs.length
  merged   : ∃ tx, newTransaction D p'.xdr = .ok tx ∧
    xdr = D.sdk.toXDR tx (mergedSignatures D tx vs (D.sdk.decorated p'.xdr))

-- What a request has done that returns.
inductive Outcome (D : Deps) (args : SubmitSignaturesArgs) (p : TreasuryProposal)
    (vs : List StoredSignature) (collected : TxLog) : TxLog → Prop
  | awaiting {rest : TxLog} : Collection D args p vs collected → (vs.length : Int) < p.threshold →
    (∀ e ∈ rest, Action.proposal? e.action = none ∧ ¬e.action.Submits) →
    Outcome D args p vs collected ((⟨.findProposal args.proposalId, .ok (some p)⟩ :: collected) ++
      ⟨.updateProposal p.id { signatures := some vs, status := some .awaitingSignatures }, .ok ()⟩ :: rest)
  | confirmed {p' : TreasuryProposal} {xdr hash : String} :
    Submission D args p p' vs xdr collected recorded log →
    Outcome D args p vs collected (log ++ [⟨.submitSigned xdr, .ok hash⟩,
      ⟨.updateProposal p'.id { status := some .confirmed, stellarTxHash := some hash }, .ok ()⟩,
      ⟨.createAuditLog row, .ok ()⟩])

theorem checkSubmission_ok {hash : String} (h : checkSubmission D p signedXdr = .ok hash) :
    hash = p.txHash ∧ envelopeHash D p.xdr = some p.txHash := by
  have ⟨tx, ht, h⟩ := Except.bind_eq_ok.mp h
  have ⟨submitted, _, h⟩ := Except.bind_eq_ok.mp h
  simp only at h
  split at h
  case isTrue     => cases h
  case isFalse h₁ =>
  split at h
  case isTrue     => cases h
  case isFalse h₂ =>
    have hh := Except.pure_eq_ok.mp h
    have h₁ := not_not.mp h₁
    have h₂ := not_not.mp h₂
    refine ⟨hh ▸ h₂ ▸ h₁, ?_⟩
    rw [envelopeHash, ht, ← h₁, h₂]
    rfl

theorem recordSignatures_call {g : Signing} {k : Except Failure String → Tx ProposalResult}
    (h : (recordSignatures D args g vs).After l (.call (.submitSigned xdr) k)) :
    g.proposal.threshold ≤ vs.length ∧ ∃ recorded p tx, (∀ e ∈ recorded, Action.proposal? e.action = none) ∧
      l = ⟨.updateProposal g.proposal.id { signatures := some vs, status := some .submitted }, .ok ()⟩ ::
        (recorded ++ [⟨.findProposal g.proposal.id, .ok (some p)⟩]) ∧
      newTransaction D p.xdr = .ok tx ∧
      xdr = D.sdk.toXDR tx (mergedSignatures D tx vs (D.sdk.decorated p.xdr)) := by
  have hs : Action.Submits (.submitSigned xdr) := trivial
  obtain ⟨l₁, _, _, rfl, h₁, k₁⟩ := Prog.Avoids.bind_call (act_avoids id) hs h
  obtain ⟨l₂, l₃, _, rfl, h₂, k₂⟩ := Prog.Avoids.bind_call auditSigned_avoids hs k₁
  split at k₂
  case isFalse => cases k₂.of_done.2
  case isTrue ht =>
    have ⟨p, tx, hl, htx, hx⟩ := mergeAndSubmit_call k₂
    refine ⟨ht, l₂, p, tx, fun e he => ?_, ?_, htx, hx⟩
    · have ⟨row, hr⟩ := auditSigned_done h₂ e he
      simp [hr, Action.proposal?]
    · rw [act_done h₁, hl]
      simp [ht]

theorem collected {as : List TreasuryApproval} {ms : List MemberKey} {message : String} {c : Collected}
    (h₁ : checkProposal p args.groupId = .ok ()) (h₂ : checkSubmission D p args.signedXdr = .ok message)
    (h₃ : (collectSignatures D ⟨p, message, args.memberPublicKeys, ms⟩ {
      approvedUserIds := (as.filter (·.txHash = p.txHash)).map (·.userId)
      existingKeys    := StoredSignature.keys p.signatures
      verified        := p.signatures
    } (D.sdk.decorated args.signedXdr)).After l (.done c)) :
    Collection D args p c.verified
      (⟨.findApprovals p.id, .ok as⟩ :: ⟨.findMembers args.groupId, .ok ms⟩ :: l) := by
  have ⟨hm, hh⟩ := checkSubmission_ok h₂
  refine ⟨h₁, ?_, fun hn hv => ?_, hh⟩
  · refine List.forall_mem_cons.mpr ⟨⟨rfl, id⟩, List.forall_mem_cons.mpr ⟨⟨rfl, id⟩, fun e he => ⟨?_, ?_⟩⟩⟩
    · exact collectSignatures_entries h₃ e he
    · exact (collectSignatures_avoids fun _ => id).entries h₃ e he
  · have hc := collectSignatures_valid ⟨rfl, hn, hm ▸ hv⟩ h₃
    exact ⟨hc.once, hm ▸ hc.valid⟩

theorem submitSignatures_call {k : Except Failure String → Tx ProposalResult}
    (h : (submitSignatures D args).After l (.call (.submitSigned xdr) k)) :
    ∃ p p' vs collected recorded, Submission D args p p' vs xdr collected recorded l := by
  have hs : Action.Submits (.submitSigned xdr) := trivial
  obtain ⟨l₁, _, p, rfl, h₁, k₁⟩ := Prog.Avoids.bind_call (act_avoids fun h => h) hs h
  cases p with
  | none   => cases k₁.of_fail.2
  | some p =>
    obtain ⟨l₂, _, _, rfl, h₂, k₂⟩ := Prog.Avoids.bind_call (lift_avoids _) hs k₁
    obtain ⟨l₃, _, message, rfl, h₃, k₃⟩ := Prog.Avoids.bind_call (lift_avoids _) hs k₂
    obtain ⟨l₄, _, as, rfl, h₄, k₄⟩ := Prog.Avoids.bind_call (act_avoids fun h => h) hs k₃
    obtain ⟨l₅, _, ms, rfl, h₅, k₅⟩ := Prog.Avoids.bind_call (act_avoids fun h => h) hs k₄
    obtain ⟨lc, lr, c, rfl, h₆, k₆⟩ := Prog.Avoids.bind_call (collectSignatures_avoids fun _ => id) hs k₅
    have ⟨ht, recorded, p', tx, hr, hl, htx, hx⟩ := recordSignatures_call k₆
    have hc := collected (lift_done h₂).2 (lift_done h₃).2 h₆
    refine ⟨p, p', c.verified, _, recorded, hc, ?_, hr, ht, tx, htx, hx⟩
    rw [act_done h₁, (lift_done h₂).1, (lift_done h₃).1, act_done h₄, act_done h₅, hl]
    simp

-- Whether the envelope is submitted is decided when the signatures are recorded.
theorem recordSignatures_outcome {g : Signing} {before : TxLog} {r : ProposalResult}
    (hc : Collection D args g.proposal vs before) (h : (recordSignatures D args g vs).After l (.done r)) :
    Outcome D args g.proposal vs before
      ((⟨.findProposal args.proposalId, .ok (some g.proposal)⟩ :: before) ++ l) := by
  obtain ⟨l₁, _, _, rfl, h₁, k₁⟩ := h.bind_done
  obtain ⟨l₂, l₃, _, rfl, h₂, k₂⟩ := k₁.bind_done
  have ha (e : Concurrency.Entry Action Action.Answer Failure) (he : e ∈ l₂) :
      Action.proposal? e.action = none ∧ ¬e.action.Submits := by
    obtain ⟨row, hr⟩ := auditSigned_done h₂ e he
    simp [hr, Action.proposal?, Action.Submits]
  split at k₂
  case isFalse ht =>
    have hl₁ : l₁ = [⟨.updateProposal g.proposal.id {
        signatures := some vs, status := some .awaitingSignatures }, .ok ()⟩] := by
      rw [act_done h₁]
      simp [ht]
    rw [hl₁, k₂.of_done.1, List.append_nil]
    exact .awaiting hc (Int.not_le.mp ht) ha
  case isTrue ht =>
    have hl₁ : l₁ = [⟨.updateProposal g.proposal.id {
        signatures := some vs, status := some .submitted }, .ok ()⟩] := by
      rw [act_done h₁]
      simp [ht]
    obtain ⟨l₄, l₅, p', rfl, h₄, k₄⟩ := k₂.bind_done
    cases p' with
    | none    => exact k₄.not_fail.elim
    | some p' =>
      obtain ⟨l₆, l₇, tx, rfl, h₆, k₆⟩ := k₄.bind_done
      obtain ⟨l₈, l₉, r', rfl, h₈, k₈⟩ := k₆.bind_done
      rcases h₈.attempt_done with ⟨v, rfl, hv⟩ | ⟨e, rfl, he⟩
      case inr => exact (recordRejection_not_done k₈).elim
      case inl =>
        obtain ⟨hash, row, hl, _⟩ := submitMerged_done hv
        rw [hl₁, act_done h₄, (lift_done h₆).1, hl, k₈.of_done.1]
        have hx : Submission D args g.proposal p' vs _ before l₂ _ :=
          ⟨hc, rfl, fun e he => (ha e he).1, ht, tx, (lift_done h₆).2, rfl⟩
        have ho : Outcome D args g.proposal vs before (_ ++ [⟨.submitSigned _, .ok hash⟩, _,
          ⟨.createAuditLog row, .ok ()⟩]) := .confirmed hx
        simpa [mergedSignatures] using ho

theorem submitSignatures_outcome {r : ProposalResult}
    (h : (submitSignatures D args).After l (.done r)) :
    ∃ p vs collected, Outcome D args p vs collected l := by
  obtain ⟨p, as, ms, message, c, lc, lr, rfl, h₁, h₂, h₃, h₄⟩ := submitSignatures_done h
  exact ⟨p, c.verified, _, recordSignatures_outcome (collected h₁ h₂ h₃) h₄⟩

namespace Submission

variable {collected recorded : TxLog} (h : Submission D args p p' vs xdr collected recorded l)
include h

-- The log up to the last entry, in which the proposal has been read once more.
def before (args : SubmitSignaturesArgs) (p : TreasuryProposal) (vs : List StoredSignature)
    (collected recorded : TxLog) : TxLog :=
  (⟨.findProposal args.proposalId, .ok (some p)⟩ :: collected) ++
    ⟨.updateProposal p.id { signatures := some vs, status := some .submitted }, .ok ()⟩ :: recorded

theorem log_eq : l = before args p vs collected recorded ++ [⟨.findProposal p.id, .ok (some p')⟩] := by
  rw [h.log, before, List.append_assoc]
  rfl

theorem updates_before : (Log.performed (before args p vs collected recorded)).filterMap Action.proposal? =
    [(p.id, { signatures := some vs, status := some .submitted })] := by
  have hc : (Log.performed collected).filterMap Action.proposal? = [] :=
    nothing_written fun e he => (h.entries e he).1
  have hr : (Log.performed recorded).filterMap Action.proposal? = [] := nothing_written h.recorded
  rw [before]
  simp only [Log.performed_append, Log.performed_cons_ok, List.filterMap_append, List.filterMap_cons,
    Action.proposal?, hc, hr, List.nil_append]

theorem updates : l.performed.filterMap Action.proposal? =
    [(p.id, { signatures := some vs, status := some .submitted })] := by
  rw [h.log_eq, Log.performed_append, List.filterMap_append, h.updates_before]
  rfl

end Submission

end

end Mergepay.Treasury
