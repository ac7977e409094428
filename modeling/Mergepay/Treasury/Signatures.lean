import Mergepay.Treasury.Writes

namespace Mergepay.Treasury

open Concurrency Stellar

variable (D : Deps)

structure SubmitSignatureArgs where
  proposalId     : String
  groupId        : String
  userId         : String
  signedXdr      : String
  actorPublicKey : Option String := none
  deriving DecidableEq

structure SignatureResult where
  status         : TxProposalStatus
  totalWeight    : Nat
  requiredWeight : Nat
  stellarTxHash  : Option String

def checkTxProposal (proposal : TreasuryTxProposal) (groupId : String) : Except Failure Unit :=
  if proposal.groupId ≠ groupId then
    .error <| .notFound "Treasury proposal not found"
  else match proposal.status with
    | .submitted =>
      .error <| .conflict "already_submitted" "Proposal has already been submitted"
    | .failed =>
      .error <| .conflict "proposal_failed"
        "Proposal is in a failed state and cannot accept signatures"
    | .pendingSignatures | .ready => .ok ()

def AccountSnapshot.checkExists (account : AccountSnapshot) : Except Failure Unit :=
  if account.exists_ then .ok ()
  else .error <| .badRequest "treasury_unfunded" "Treasury account is not funded on-chain"

-- The weight that an account gives to a key. Keys that are not among its signers have none.
def AccountSnapshot.weightOf (account : AccountSnapshot) (key : String) : Nat :=
  ((Table.row? (·.key) account.signers.reverse key).map (·.weight)).getD 0

structure AuthorizedAdmin where
  userId    : String
  publicKey : String
  weight    : Nat

def authorizedAdmins (admins : List MemberKey) (account : AccountSnapshot) : List AuthorizedAdmin :=
  (admins.map fun a => {
    userId    := a.userId
    publicKey := a.publicKey
    weight    := account.weightOf a.publicKey
  }).filter (0 < ·.weight)

structure NewSignature extends AuthorizedAdmin where
  signature : String

def NewSignature.row (proposalId : String) (s : NewSignature) : TreasurySignature := {
  proposalId
  signerUserId    := s.userId
  signerPublicKey := s.publicKey
  signature       := s.signature
  weight          := s.weight
}

def checkEnvelope (proposal : TreasuryTxProposal) (hash : String) (signatureCount : Nat) :
    Except Failure Unit :=
  if hash ≠ proposal.txHash then
    .error <| .badRequest "xdr_mismatch" "Submitted XDR does not match the proposal's transaction"
  else if signatureCount = 0 then
    .error <| .badRequest "xdr_unsigned" "Submitted XDR carries no signatures"
  else
    .ok ()

def checkCollected (proposal : TreasuryTxProposal) (signedXdr : String) (now : Time) :
    Except Failure String := do
  let submitted ← parseTreasuryXdr D signedXdr "Could not parse signed XDR"
  checkEnvelope proposal (D.sdk.hash submitted) (D.sdk.decorated signedXdr).length
  D.assertTreasuryEnvelopePolicy submitted proposal.sourceAccount now
  return D.sdk.hash submitted

-- One step of the loop over the signatures of an envelope. Whoever has signed before, or occurs more
-- than once, is skipped, but only after the signature has been verified.
def selectSignature (admins : List AuthorizedAdmin) (signedUserIds : List String) (hash : String)
    (newSignatures : List NewSignature) (decorated : DecoratedSignature) :
    Except Failure (List NewSignature) :=
  match admins.find? (D.sdk.signatureHint ·.publicKey = some decorated.hint) with
  | none => .error <| .badRequest "unauthorized_signer"
      "Transaction contains a signature from a non-admin or unauthorized signer"
  | some matched =>
    if ¬D.sdk.verify matched.publicKey hash decorated.signature then
      .error <| .badRequest "invalid_signature" <| "Signature for " ++ matched.publicKey ++
        " did not verify against the proposed transaction"
    else if matched.userId ∈ signedUserIds ∨ matched.userId ∈ newSignatures.map (·.userId) then
      .ok newSignatures
    else
      .ok <| newSignatures ++ [{ matched with signature := decorated.signature }]

def selectSignatures (admins : List AuthorizedAdmin) (signedUserIds : List String) (hash : String)
    (decorated : List DecoratedSignature) : Except Failure (List NewSignature) :=
  decorated.foldlM (selectSignature D admins signedUserIds hash) []

def auditCollector (proposal : TreasuryTxProposal) (userId : String) (actorPublicKey : Option String)
    (action : AuditAction) (outcome : AuditOutcome) (metadata : Metadata) : Tx Unit :=
  auditMultisigActionTx {
    userId         := userId
    groupId        := proposal.groupId
    proposalId     := proposal.id
    entityType     := "treasury_tx_proposal"
    actorPublicKey := actorPublicKey
    action         := action
    outcome        := outcome
    metadata       := metadata
  }

-- If another transaction has recorded the signer in the meantime, the signature is skipped.
def recordSignature (proposal : TreasuryTxProposal) (s : NewSignature) : Tx Unit :=
  (act <| .createSignature (s.row proposal.id)).attempt.bind fun
  | .ok _    => auditCollector proposal s.userId (some s.publicKey) .treasuryTxProposalSignatureAdded
      .success [
        ("signerPublicKey", .text s.publicKey),
        ("txHash", .text proposal.txHash),
        ("weight", .number s.weight)
      ]
  | .error e => if e = World.uniqueViolation then .done () else .fail e

structure Decision where
  proposal       : TreasuryTxProposal
  userId         : String
  actorPublicKey : Option String
  totalWeight    : Nat
  requiredWeight : Nat

def submitCollected (d : Decision) (mergedXdr : String) : Tx SignatureResult := do
  let hash ← act <| .submitSigned mergedXdr
  act <| .updateTxProposal d.proposal.id { status := some .submitted, stellarTxHash := some hash }
  auditCollector d.proposal d.userId d.actorPublicKey .treasuryTxProposalSubmitted .success [
    ("stellarTxHash", .text hash),
    ("totalWeight", .number d.totalWeight),
    ("requiredWeight", .number d.requiredWeight),
    ("txHash", .text d.proposal.txHash)
  ]
  return {
    status         := .submitted
    totalWeight    := d.totalWeight
    requiredWeight := d.requiredWeight
    stellarTxHash  := some hash
  }

def recordFailure (d : Decision) (reason : String) : Tx SignatureResult := do
  act <| .updateTxProposal d.proposal.id { status := some .failed, failureReason := some reason }
  auditCollector d.proposal d.userId d.actorPublicKey .treasuryTxProposalFailed .failure [
    ("reason", .text reason),
    ("totalWeight", .number d.totalWeight),
    ("requiredWeight", .number d.requiredWeight),
    ("txHash", .text d.proposal.txHash)
  ]
  throw <| .upstream ("Stellar rejected the multisig transaction: " ++ reason)

def mergedXdr (base : Transaction) (xdr : String) (signatures : List TreasurySignature) : String :=
  D.sdk.toXDR base <| signatures.foldl
    (fun l s => addSignature D base l s.signerPublicKey s.signature) (D.sdk.decorated xdr)

def submitReady (d : Decision) (allSignatures : List TreasurySignature) : Tx SignatureResult := do
  act <| .updateTxProposal d.proposal.id {
    status         := some .ready
    requiredWeight := some d.requiredWeight
  }
  auditCollector d.proposal d.userId d.actorPublicKey .treasuryTxProposalReady .success [
    ("totalWeight", .number d.totalWeight),
    ("requiredWeight", .number d.requiredWeight),
    ("txHash", .text d.proposal.txHash)
  ]
  let base ← lift <| parseTreasuryXdr D d.proposal.xdr "Stored proposal envelope is corrupt"
  match ← (submitCollected d <| mergedXdr D base d.proposal.xdr allSignatures).attempt with
  | .ok result => return result
  | .error e   => recordFailure d e.message

-- The decision, based on all signatures that the transaction sees.
def decideThreshold (proposal : TreasuryTxProposal) (args : SubmitSignatureArgs)
    (account : AccountSnapshot) (admins : List AuthorizedAdmin)
    (allSignatures : List TreasurySignature) : Tx SignatureResult :=
  let totalWeight := (allSignatures.map (·.weight)).sum
  let requiredWeight := account.thresholds.high
  if totalWeight < requiredWeight then do
    act <| .updateTxProposal proposal.id {
      status         := some .pendingSignatures
      requiredWeight := some requiredWeight
    }
    return { status := .pendingSignatures, totalWeight, requiredWeight, stellarTxHash := none }
  else submitReady D {
    proposal, totalWeight, requiredWeight
    userId         := args.userId
    actorPublicKey :=
      (admins.find? (·.userId = args.userId)).map (·.publicKey) <|> args.actorPublicKey
  } allSignatures

-- What the decision is based on.
structure Gathered where
  proposal      : TreasuryTxProposal
  account       : AccountSnapshot
  admins        : List AuthorizedAdmin
  allSignatures : List TreasurySignature

-- The comment on the first query asks for a lock on the row, but `findUnique` takes none.
def gatherSignatures (args : SubmitSignatureArgs) : Tx Gathered := do
  let some proposal ← act <| .findTxProposal args.proposalId
    | throw <| .notFound "Treasury proposal not found"
  lift <| checkTxProposal proposal args.groupId
  let members ← act <| .findAdmins args.groupId
  let account ← act <| .loadAccount proposal.sourceAccount
  lift account.checkExists
  let admins := authorizedAdmins members account
  let now ← act .now
  let hash ← lift <| checkCollected D proposal args.signedXdr now
  let existing ← act <| .findSignatures proposal.id
  let newSignatures ← lift <| selectSignatures D admins (existing.map (·.signerUserId)) hash
    (D.sdk.decorated args.signedXdr)
  Prog.forEach (recordSignature proposal) newSignatures
  let allSignatures ← act <| .findSignatures proposal.id
  return { proposal, account, admins, allSignatures }

def submitSignature (args : SubmitSignatureArgs) : Tx SignatureResult := do
  let g ← gatherSignatures D args
  decideThreshold D g.proposal args g.account g.admins g.allSignatures

-- What a request reads and writes.

variable {D} {l : TxLog} {args : SubmitSignatureArgs} {proposal : TreasuryTxProposal}

theorem checkCollected_ok {p : TreasuryTxProposal} {hash : String}
    (h : checkCollected D p xdr now = .ok hash) : hash = p.txHash := by
  have ⟨tx, _, h⟩ := Except.bind_eq_ok.mp h
  have ⟨hc, h⟩ := Except.unit_bind_eq_ok.mp h
  have ⟨_, h⟩ := Except.unit_bind_eq_ok.mp h
  rw [← Except.pure_eq_ok.mp h]
  by_contra hn
  simp [checkEnvelope, hn] at hc

theorem mem_authorizedAdmins (h : a ∈ authorizedAdmins ms account) :
    ∃ m ∈ ms, a.userId = m.userId ∧ a.publicKey = m.publicKey ∧
      a.weight = account.weightOf m.publicKey := by
  have ⟨m, hm, ha⟩ := List.mem_map.mp (List.mem_filter.mp h).1
  exact ⟨m, hm, ha ▸ ⟨rfl, rfl, rfl⟩⟩

structure Selected (D : Deps) (admins : List AuthorizedAdmin) (hash : String) (s : NewSignature) :
    Prop where
  admin    : s.toAuthorizedAdmin ∈ admins
  hint     : (D.sdk.signatureHint s.publicKey).isSome
  verified : D.sdk.verify s.publicKey hash s.signature = true

-- New signatures are by the given admins, and have been verified.
theorem selectSignatures_ok {hash : String} {admins : List AuthorizedAdmin}
    {ds : List DecoratedSignature} (h : selectSignatures D admins signed hash ds = .ok new) :
    ∀ s ∈ new, Selected D admins hash s := by
  refine Except.foldlM_induction (fun _ new => ∀ s ∈ new, Selected D admins hash s) h (by simp) ?_
  intro _ d acc acc' hi hs
  simp only [selectSignature] at hs
  split at hs
  case h_1 => cases hs
  case h_2 matched hm =>
    split at hs
    case isTrue => cases hs
    case isFalse hv =>
      split at hs
      case isTrue =>
        cases hs
        exact hi
      case isFalse =>
        cases hs
        intro s hs
        rcases List.mem_append.mp hs with hs | hs
        case inl => exact hi s hs
        case inr =>
          obtain rfl := List.mem_singleton.mp hs
          have hh := List.find?_some hm
          simp only [decide_eq_true_eq] at hh
          exact ⟨List.mem_of_find?_eq_some hm, by simp [hh], by simpa using hv⟩

-- Apart from audit rows, the loop over the new signatures only inserts some of them.
theorem recordSignature_done (h : (recordSignature proposal x).After l (.done ())) :
    ∀ e ∈ l, e.action = .createSignature (x.row proposal.id) ∨
      ∃ row, e.action = .createAuditLog row := by
  obtain ⟨l₁, l₂, r, rfl, h₁, h₂⟩ := h.bind_done
  rcases h₁.attempt_done with ⟨v, rfl, hr⟩ | ⟨e, rfl, hr⟩
  case inl =>
    have ⟨row, hl, _⟩ := auditMultisigActionTx_done h₂
    rw [act_done hr, hl]
    simp
  case inr =>
    rw [act_fail hr]
    simp only at h₂
    split at h₂
    case isTrue =>
      rw [h₂.of_done.1]
      simp
    case isFalse => exact h₂.not_fail.elim

theorem recordSignatures_entries (h : (Prog.forEach (recordSignature proposal) new).After l (.done ())) :
    ∀ e ∈ l, (∃ x ∈ new, e.action = .createSignature (x.row proposal.id)) ∨
      ∃ row, e.action = .createAuditLog row :=
  h.forEach_done fun x hx _ h e he => (recordSignature_done h e he).imp_left fun h => ⟨x, hx, h⟩

-- The entries of a request up to its decision.
structure Gathers (D : Deps) (args : SubmitSignatureArgs) (g : Gathered) (members : List MemberKey)
    (now : Time) (existing : List TreasurySignature) (hash : String) (new : List NewSignature)
    (recorded : TxLog) (log : TxLog) : Prop where
  log      : log = (⟨.findTxProposal args.proposalId, .ok (some g.proposal)⟩ ::
    ⟨.findAdmins args.groupId, .ok members⟩ ::
    ⟨.loadAccount g.proposal.sourceAccount, .ok g.account⟩ :: ⟨.now, .ok now⟩ ::
    ⟨.findSignatures g.proposal.id, .ok existing⟩ :: recorded) ++
    [⟨.findSignatures g.proposal.id, .ok g.allSignatures⟩]
  admins   : g.admins = authorizedAdmins members g.account
  checked  : checkCollected D g.proposal args.signedXdr now = .ok hash
  selected : selectSignatures D g.admins (existing.map (·.signerUserId)) hash
    (D.sdk.decorated args.signedXdr) = .ok new
  recorded : (Prog.forEach (recordSignature g.proposal) new).After recorded (.done ())

theorem gatherSignatures_done {g : Gathered} (h : (gatherSignatures D args).After l (.done g)) :
    ∃ members now existing hash new recorded,
      Gathers D args g members now existing hash new recorded l := by
  obtain ⟨l₁, _, p, rfl, h₁, k₁⟩ := h.bind_done
  cases p with
  | none   => exact k₁.not_fail.elim
  | some p =>
    obtain ⟨l₂, _, _, rfl, h₂, k₂⟩ := k₁.bind_done
    obtain ⟨l₃, _, members, rfl, h₃, k₃⟩ := k₂.bind_done
    obtain ⟨l₄, _, account, rfl, h₄, k₄⟩ := k₃.bind_done
    obtain ⟨l₅, _, _, rfl, h₅, k₅⟩ := k₄.bind_done
    obtain ⟨l₆, _, now, rfl, h₆, k₆⟩ := k₅.bind_done
    obtain ⟨l₇, _, hash, rfl, h₇, k₇⟩ := k₆.bind_done
    obtain ⟨l₈, _, existing, rfl, h₈, k₈⟩ := k₇.bind_done
    obtain ⟨l₉, _, new, rfl, h₉, k₉⟩ := k₈.bind_done
    obtain ⟨lc, _, _, rfl, h₁₀, k₁₀⟩ := k₉.bind_done
    obtain ⟨l₁₁, _, all, rfl, h₁₁, k₁₁⟩ := k₁₀.bind_done
    obtain ⟨rfl, hd⟩ := k₁₁.of_done
    cases hd
    rw [act_done h₁, (lift_done h₂).1, act_done h₃, act_done h₄, (lift_done h₅).1, act_done h₆,
      (lift_done h₇).1, act_done h₈, (lift_done h₉).1, act_done h₁₁]
    exact ⟨members, now, existing, hash, new, lc, ⟨rfl, rfl, (lift_done h₇).2, (lift_done h₉).2, h₁₀⟩⟩

theorem gatherSignatures_avoids : (gatherSignatures D args).Avoids Action.Submits := by
  refine .bind (act_avoids id) fun p => ?_
  cases p with
  | none   => exact .fail _
  | some p =>
    refine .bind (lift_avoids _) fun _ => .bind (act_avoids id) fun _ => .bind (act_avoids id) fun _ => ?_
    refine .bind (lift_avoids _) fun _ => .bind (act_avoids id) fun _ => .bind (lift_avoids _) fun _ => ?_
    refine .bind (act_avoids id) fun _ => .bind (lift_avoids _) fun new => ?_
    refine .bind (.forEach (fun s => .bind (.attempt (act_avoids id)) fun r => ?_) new) fun _ => ?_
    · cases r with
      | ok v    => exact act_avoids id
      | error e =>
        simp only
        split
        · exact .done ()
        · exact .fail e
    · exact .bind (act_avoids id) fun _ => .done _

-- What is written by the decision, if the request returns.
inductive Decides (p : TreasuryTxProposal) (account : AccountSnapshot)
    (allSignatures : List TreasurySignature) : List (String × TxProposalData) → Prop
  | pending : (allSignatures.map (·.weight)).sum < account.thresholds.high →
    Decides p account allSignatures [(p.id, {
      status         := some .pendingSignatures
      requiredWeight := some account.thresholds.high
    })]
  | submitted (requiredWeight : Nat) (hash : String) : Decides p account allSignatures [
      (p.id, { status := some .ready, requiredWeight := some requiredWeight }),
      (p.id, { status := some .submitted, stellarTxHash := some hash })]

def foundSignatures : Concurrency.Entry Action Action.Answer Failure → Option (List TreasurySignature)
  | ⟨.findSignatures _, .ok l⟩ => some l
  | _                          => none

theorem submitCollected_done (h : (submitCollected d xdr).After l (.done r)) :
    ∃ hash row, l = [⟨.submitSigned xdr, .ok hash⟩,
      ⟨.updateTxProposal d.proposal.id { status := some .submitted, stellarTxHash := some hash }, .ok ()⟩,
      ⟨.createAuditLog row, .ok ()⟩] ∧ row.action = .treasuryTxProposalSubmitted := by
  obtain ⟨l₁, _, hash, rfl, h₁, k₁⟩ := h.bind_done
  obtain ⟨l₂, _, _, rfl, h₂, k₂⟩ := k₁.bind_done
  obtain ⟨l₃, _, _, rfl, h₃, k₃⟩ := k₂.bind_done
  have ⟨row, hl, hr⟩ := auditMultisigActionTx_done h₃
  rw [act_done h₁, act_done h₂, hl, k₃.of_done.1]
  exact ⟨hash, row, rfl, hr⟩

theorem recordFailure_not_done (h : (recordFailure d reason).After l (.done r)) : False := by
  obtain ⟨_, _, _, _, _, h⟩ := h.bind_done
  obtain ⟨_, _, _, _, _, h⟩ := h.bind_done
  exact h.not_fail

theorem submitReady_done (h : (submitReady D d allSignatures).After l (.done r)) :
    ∃ xdr hash row₁ row₂, l = [
      ⟨.updateTxProposal d.proposal.id {
        status := some .ready, requiredWeight := some d.requiredWeight }, .ok ()⟩,
      ⟨.createAuditLog row₁, .ok ()⟩, ⟨.submitSigned xdr, .ok hash⟩,
      ⟨.updateTxProposal d.proposal.id { status := some .submitted, stellarTxHash := some hash }, .ok ()⟩,
      ⟨.createAuditLog row₂, .ok ()⟩] ∧ row₁.action = .treasuryTxProposalReady ∧
      row₂.action = .treasuryTxProposalSubmitted := by
  obtain ⟨l₁, _, _, rfl, h₁, k₁⟩ := h.bind_done
  obtain ⟨l₂, _, _, rfl, h₂, k₂⟩ := k₁.bind_done
  obtain ⟨l₃, _, base, rfl, h₃, k₃⟩ := k₂.bind_done
  obtain ⟨l₄, _, r', rfl, h₄, k₄⟩ := k₃.bind_done
  rcases h₄.attempt_done with ⟨v, rfl, hv⟩ | ⟨e, rfl, he⟩
  case inr => exact (recordFailure_not_done k₄).elim
  case inl =>
    have ⟨row₁, hl₁, hr₁⟩ := auditMultisigActionTx_done h₂
    have ⟨hash, row₂, hl₂, hr₂⟩ := submitCollected_done hv
    rw [act_done h₁, hl₁, (lift_done h₃).1, hl₂, k₄.of_done.1]
    exact ⟨_, hash, row₁, row₂, rfl, hr₁, hr₂⟩

theorem decideThreshold_done
    (h : (decideThreshold D p args account admins allSignatures).After l (.done r)) :
    Decides p account allSignatures (l.performed.filterMap Action.txProposal?) ∧
    l.performed.filterMap Action.signature? = [] ∧ l.filterMap foundSignatures = [] := by
  simp only [decideThreshold] at h
  split at h
  case isTrue hw =>
    obtain ⟨l₁, _, _, rfl, h₁, k₁⟩ := h.bind_done
    rw [act_done h₁, k₁.of_done.1]
    exact ⟨.pending hw, rfl, rfl⟩
  case isFalse =>
    have ⟨xdr, hash, row₁, row₂, hl, _, _⟩ := submitReady_done h
    rw [hl]
    exact ⟨.submitted _ hash, rfl, rfl⟩

theorem submitCollected_call {xdr' : String} {k : Except Failure String → Tx SignatureResult}
    (h : (submitCollected d xdr).After l (.call (.submitSigned xdr') k)) : l = [] ∧ xdr' = xdr := by
  have hs : Action.Submits (.submitSigned xdr') := trivial
  rcases h.bind_call with ⟨_, h⟩ | ⟨_, _, _, _, _, h⟩
  case inl =>
    have ⟨hl, hx⟩ := act_call h
    cases hx
    exact ⟨hl, rfl⟩
  case inr =>
    exact (Prog.Avoids.bind (act_avoids id) (fun _ => .bind (act_avoids id) fun _ => .done _) _ _ _ h hs).elim

-- An envelope is only submitted if the threshold has been met by the stored weights.
theorem decideThreshold_call {xdr : String} {k : Except Failure String → Tx SignatureResult}
    (h : (decideThreshold D p args account admins allSignatures).After l (.call (.submitSigned xdr) k)) :
    account.thresholds.high ≤ (allSignatures.map (·.weight)).sum ∧
    (∃ base, parseTreasuryXdr D p.xdr "Stored proposal envelope is corrupt" = .ok base ∧
      xdr = mergedXdr D base p.xdr allSignatures) ∧
    ∃ data row, l = [⟨.updateTxProposal p.id data, .ok ()⟩, ⟨.createAuditLog row, .ok ()⟩] := by
  have hs : Action.Submits (.submitSigned xdr) := trivial
  simp only [decideThreshold] at h
  split at h
  case isTrue =>
    exact (Prog.Avoids.bind (act_avoids id) (fun _ => .done _) _ _ _ h hs).elim
  case isFalse hw =>
    obtain ⟨l₁, _, _, rfl, h₁, k₁⟩ := Prog.Avoids.bind_call (act_avoids id) hs h
    obtain ⟨l₂, _, _, rfl, h₂, k₂⟩ := Prog.Avoids.bind_call (act_avoids id) hs k₁
    obtain ⟨l₃, _, base, rfl, h₃, k₃⟩ := Prog.Avoids.bind_call (lift_avoids _) hs k₂
    rcases k₃.bind_call with ⟨_, h₄⟩ | ⟨_, _, r, _, _, h₄⟩
    case inl =>
      have ⟨_, h₅⟩ := h₄.attempt_call
      have ⟨hl, hx⟩ := submitCollected_call h₅
      have ⟨row, hr, _⟩ := auditMultisigActionTx_done h₂
      refine ⟨Nat.not_lt.mp hw, ⟨base, (lift_done h₃).2, hx⟩, ?_⟩
      rw [act_done h₁, hr, (lift_done h₃).1, hl]
      exact ⟨_, row, rfl⟩
    case inr =>
      cases r with
      | ok v    => cases h₄.of_done.2
      | error e =>
        exact (Prog.Avoids.bind (act_avoids id) (fun _ => .bind (act_avoids id) fun _ => .fail _)
          _ _ _ h₄ hs).elim

-- What a request has read, as it is found in its log.

def readTxProposal : TxLog → Option TreasuryTxProposal
  | ⟨.findTxProposal _, .ok p⟩ :: _ => p
  | _                               => none

def readAccount : TxLog → Option AccountSnapshot
  | _ :: _ :: ⟨.loadAccount _, .ok account⟩ :: _ => some account
  | _                                            => none

-- The signatures that have been counted are those that were found by the last query.
def countedSignatures (log : TxLog) : Option (List TreasurySignature) :=
  (log.filterMap foundSignatures).getLast?

namespace Gathers

variable {hash : String} {recorded ld : TxLog} {g : Gathered}
  (h : Gathers D args g members now existing hash new recorded l)
include h

theorem found_proposal : ⟨.findTxProposal args.proposalId, .ok (some g.proposal)⟩ ∈ l := by
  rw [h.log]
  exact .head _

theorem found_members : ⟨.findAdmins args.groupId, .ok members⟩ ∈ l := by
  rw [h.log]
  exact .tail _ (.head _)

theorem readTxProposal_eq : readTxProposal (l ++ ld) = some g.proposal := by
  rw [h.log]
  rfl

theorem readAccount_eq : readAccount (l ++ ld) = some g.account := by
  rw [h.log]
  rfl

theorem found_recorded : recorded.filterMap foundSignatures = [] := by
  refine List.filterMap_eq_nil_iff.mpr fun ⟨a, r⟩ he => ?_
  rcases recordSignatures_entries h.recorded _ he with ⟨_, _, ha⟩ | ⟨_, ha⟩
  case inl =>
    cases ha
    rfl
  case inr =>
    cases ha
    rfl

theorem countedSignatures_eq (hd : ld.filterMap foundSignatures = []) :
    countedSignatures (l ++ ld) = some g.allSignatures := by
  have hl : l.filterMap foundSignatures = [existing, g.allSignatures] := by
    rw [h.log]
    change existing :: (recorded ++ [_]).filterMap foundSignatures = _
    rw [List.filterMap_append, h.found_recorded]
    rfl
  rw [countedSignatures, List.filterMap_append, hl, hd]
  rfl

-- A request inserts rows for its own proposal.
theorem written (hr : row ∈ l.performed.filterMap Action.signature?) :
    ∃ x ∈ new, row = x.row g.proposal.id := by
  have hp : l.performed.filterMap Action.signature? =
      (Log.performed recorded).filterMap Action.signature? := by
    rw [h.log]
    change (Log.performed (recorded ++ [_])).filterMap Action.signature? = _
    rw [Log.performed_append, List.filterMap_append]
    exact List.append_nil _
  rw [hp] at hr
  have ⟨a, ha, hw⟩ := List.mem_filterMap.mp hr
  have ⟨e, he, hea⟩ := Log.mem_performed ha
  rcases recordSignatures_entries h.recorded e he with ⟨x, hx, hc⟩ | ⟨_, hc⟩
  case inl =>
    obtain rfl := hea.symm.trans hc
    exact ⟨x, hx, (Option.some.inj hw).symm⟩
  case inr =>
    obtain rfl := hea.symm.trans hc
    cases hw

theorem no_update : l.performed.filterMap Action.txProposal? = [] := by
  refine nothing_written fun e he => ?_
  rw [h.log] at he
  simp only [List.mem_cons, List.mem_append, List.not_mem_nil, or_false] at he
  rcases he with (rfl | rfl | rfl | rfl | rfl | he) | rfl
  case inl.inr.inr.inr.inr.inr =>
    rcases recordSignatures_entries h.recorded e he with ⟨_, _, hc⟩ | ⟨_, hc⟩
    case inl => simp [hc, Action.txProposal?]
    case inr => simp [hc, Action.txProposal?]
  all_goals rfl

end Gathers

end Mergepay.Treasury
