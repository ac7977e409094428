import Mergepay.Treasury.Writes

namespace Mergepay.Treasury

open Concurrency Stellar

variable (D : Deps)

structure SubmitSignaturesArgs where
  proposalId       : String
  groupId          : String
  memberPublicKeys : List String
  signedXdr        : String
  userId           : String
  actorPublicKey   : Option String := none
  deriving DecidableEq

structure ProposalResult where
  status         : ProposalStatus
  signatureCount : Nat
  threshold      : Int
  stellarTxHash  : Option String

def checkProposal (proposal : TreasuryProposal) (groupId : String) : Except Failure Unit :=
  if proposal.groupId ≠ groupId then
    .error <| .notFound "Treasury proposal not found"
  else match proposal.status with
    | .confirmed | .submitted =>
      .error <| .conflict "already_submitted" "Proposal has already been submitted"
    | .failed =>
      .error <| .conflict "proposal_failed"
        "Proposal is in a failed state and cannot accept signatures"
    | .pending | .awaitingSignatures | .ready | .expired => .ok ()

-- The hash that is to be signed.
def checkSubmission (proposal : TreasuryProposal) (signedXdr : String) : Except Failure String := do
  let baseTx ← newTransaction D proposal.xdr
  let submitted ← (newTransaction D signedXdr).mapError fun e => .badRequest "invalid_xdr" e.message
  if D.sdk.hash submitted ≠ proposal.txHash then
    throw <| .badRequest "xdr_mismatch" "Submitted XDR hashes a different transaction than the proposal"
  if D.sdk.hash submitted ≠ D.sdk.hash baseTx then
    throw <| .badRequest "xdr_mismatch" "Submitted XDR does not match the stored proposal envelope"
  return D.sdk.hash baseTx

-- Members are recognized by the last bytes of their key.
def matchedMember (memberPublicKeys : List String) (hint : String) : Option String :=
  memberPublicKeys.find? (D.sdk.signatureHint · = some hint)

def memberUserId (members : List MemberKey) (publicKey : String) : Option String :=
  (Table.row? (·.publicKey) members.reverse publicKey).map (·.userId)

-- What the loop over the signatures of an envelope has found so far.
structure Collected where
  approvedUserIds : List String
  existingKeys    : List String
  verified        : List StoredSignature

def Collected.push (c : Collected) (publicKey signature : String) : Collected := { c with
  existingKeys := c.existingKeys ++ [publicKey]
  verified     := c.verified ++ [{ publicKey, signature }]
}

def Collected.approve (c : Collected) (userId : String) : Collected :=
  { c with approvedUserIds := userId :: c.approvedUserIds }

structure Signing where
  proposal         : TreasuryProposal
  message          : String
  memberPublicKeys : List String
  members          : List MemberKey

def Signing.approval (g : Signing) (userId signature : String) : TreasuryApproval := {
  proposalId := g.proposal.id
  userId
  txHash     := g.proposal.txHash
  signature
}

-- Signatures of strangers are skipped, and so are those of members who have already signed. If
-- another transaction has created the approval in the meantime, the signature is skipped as well.
def collectSignature (g : Signing) (c : Collected) (decorated : DecoratedSignature) : Tx Collected :=
  match matchedMember D g.memberPublicKeys decorated.hint with
  | none         => .done c
  | some matched =>
    if (memberUserId g.members matched).any (· ∈ c.approvedUserIds) then
      .done c
    else if matched ∈ c.existingKeys then
      .done c
    else if ¬D.sdk.verify matched g.message decorated.signature then
      .fail <| .badRequest "invalid_signature" <| "Signature for " ++ matched ++
        " did not verify against the proposed transaction"
    else match memberUserId g.members matched with
      | none        => .done (c.push matched decorated.signature)
      | some userId =>
        (act <| .createApproval (g.approval userId decorated.signature)).attempt.bind fun
        | .ok _    => .done <| (c.push matched decorated.signature).approve userId
        | .error e => if e = World.uniqueViolation then .done c else .fail e

def collectSignatures (g : Signing) (c : Collected) : List DecoratedSignature → Tx Collected
  | []      => .done c
  | d :: ds => (collectSignature D g c d).bind fun c => collectSignatures g c ds

def auditSigned (g : Signing) (signatureCount : Nat) (publicKey : String) : Tx Unit :=
  auditMultisigActionTx {
    userId         := memberUserId g.members publicKey
    groupId        := g.proposal.groupId
    actorPublicKey := publicKey
    action         := .treasuryProposalSigned
    proposalId     := g.proposal.id
    metadata       := [
      ("signerPublicKey", .text publicKey),
      ("txHash", .text g.proposal.txHash),
      ("signatureCount", .number signatureCount),
      ("threshold", .number g.proposal.threshold)
    ]
  }

-- Everything that happens between the submission and the response is within the same `try` block.
def submitMerged (proposal : TreasuryProposal) (baseTx : Transaction) (signedXdr : String)
    (signatureCount : Nat) (actorPublicKey actorUserId : Option String) : Tx ProposalResult := do
  let hash ← act (.submitSigned signedXdr)
  act (.updateProposal proposal.id { status := some .confirmed, stellarTxHash := some hash })
  auditMultisigActionTx {
    userId         := actorUserId
    groupId        := proposal.groupId
    actorPublicKey := actorPublicKey
    action         := .treasuryProposalSubmitted
    proposalId     := proposal.id
    metadata       := [
      ("sourceAccount", .text baseTx.source),
      ("txHash", .text proposal.txHash),
      ("signatureCount", .number signatureCount),
      ("threshold", .number proposal.threshold),
      ("stellarTxHash", .text hash)
    ]
  }
  return {
    status         := .confirmed
    signatureCount := signatureCount
    threshold      := proposal.threshold
    stellarTxHash  := some hash
  }

def recordRejection (proposal : TreasuryProposal) (msg : String) (signatureCount : Nat)
    (actorPublicKey actorUserId : Option String) : Tx ProposalResult := do
  act (.updateProposal proposal.id { status := some .failed, failureReason := some msg })
  auditMultisigActionTx {
    userId         := actorUserId
    groupId        := proposal.groupId
    actorPublicKey := actorPublicKey
    action         := .treasuryProposalFailed
    proposalId     := proposal.id
    outcome        := .failure
    metadata       := [
      ("txHash", .text proposal.txHash),
      ("signatureCount", .number signatureCount),
      ("threshold", .number proposal.threshold),
      ("reason", .text msg)
    ]
  }
  throw <| .upstream ("Stellar rejected the multisig transaction: " ++ msg)

def mergeAndSubmit (proposalId : String) (storedSignatures : List StoredSignature)
    (actorPublicKey actorUserId : Option String) : Tx ProposalResult := do
  let some proposal ← act (.findProposal proposalId)
    | throw <| .notFound "Treasury proposal not found"
  let baseTx ← lift <| newTransaction D proposal.xdr
  let signatures := storedSignatures.foldl (fun l s => addSignature D baseTx l s.publicKey s.signature)
    (D.sdk.decorated proposal.xdr)
  let signedXdr := D.sdk.toXDR baseTx signatures
  match ← (submitMerged proposal baseTx signedXdr storedSignatures.length actorPublicKey
    actorUserId).attempt with
  | .ok result => return result
  | .error e   => recordRejection proposal e.message storedSignatures.length actorPublicKey actorUserId

-- The rest of `submitSignatures`, once the signatures have been collected.
def recordSignatures (args : SubmitSignaturesArgs) (g : Signing) (verified : List StoredSignature) :
    Tx ProposalResult := do
  let meetsThreshold := verified.length ≥ g.proposal.threshold
  act (.updateProposal g.proposal.id {
    signatures := some verified
    status     := some <| if meetsThreshold then .submitted else .awaitingSignatures
  })
  Prog.forEach (fun s => auditSigned g verified.length s.publicKey)
    (verified.drop g.proposal.signatures.length)
  if meetsThreshold then
    mergeAndSubmit D g.proposal.id verified
      (args.actorPublicKey <|> verified.getLast?.map (·.publicKey)) (some args.userId)
  else return {
    status         := .awaitingSignatures
    signatureCount := verified.length
    threshold      := g.proposal.threshold
    stellarTxHash  := none
  }

-- The comment on the first query asks for a lock on the row, but `findUnique` takes none.
def submitSignatures (args : SubmitSignaturesArgs) : Tx ProposalResult := do
  let some proposal ← act <| .findProposal args.proposalId
    | throw <| .notFound "Treasury proposal not found"
  lift <| checkProposal proposal args.groupId
  let message ← lift <| checkSubmission D proposal args.signedXdr
  let existingApprovals ← act (.findApprovals proposal.id)
  let members ← act (.findMembers args.groupId)
  let g : Signing := { proposal, message, memberPublicKeys := args.memberPublicKeys, members }
  let collected ← collectSignatures D g {
    approvedUserIds := (existingApprovals.filter (·.txHash = proposal.txHash)).map (·.userId)
    existingKeys    := proposal.signatures.map (·.publicKey)
    verified        := proposal.signatures
  } (D.sdk.decorated args.signedXdr)
  recordSignatures D args g collected.verified

-- What a request writes that returns normally.

variable {D} {g : Signing} {c c' : Collected} {l : TxLog}

-- How a single signature is dealt with.
inductive Collects (D : Deps) (g : Signing) (c : Collected) (d : DecoratedSignature) :
    List Action → Collected → Prop
  | skipped : Collects D g c d [] c
  | stranger : matchedMember D g.memberPublicKeys d.hint = some k → k ∉ c.existingKeys →
    memberUserId g.members k = none → Collects D g c d [] (c.push k d.signature)
  | approved : matchedMember D g.memberPublicKeys d.hint = some k → k ∉ c.existingKeys →
    memberUserId g.members k = some u → Collects D g c d [.createApproval (g.approval u d.signature)]
      ((c.push k d.signature).approve u)

theorem collectSignature_done (h : (collectSignature D g c d).After l (.done c')) :
    Collects D g c d l.performed c' := by
  simp only [collectSignature] at h
  split at h
  case h_1 =>
    obtain ⟨rfl, hc⟩ := h.of_done
    cases hc
    exact .skipped
  case h_2 k hk =>
    split at h
    case isTrue =>
      obtain ⟨rfl, hc⟩ := h.of_done
      cases hc
      exact .skipped
    split at h
    case isTrue =>
      obtain ⟨rfl, hc⟩ := h.of_done
      cases hc
      exact .skipped
    case isFalse he =>
    split at h
    case isTrue => exact h.not_fail.elim
    split at h
    case h_1 hu =>
      obtain ⟨rfl, hc⟩ := h.of_done
      cases hc
      exact .stranger hk he hu
    case h_2 u hu =>
      obtain ⟨l₁, l₂, r, rfl, h₁, h₂⟩ := h.bind_done
      rcases h₁.attempt_done with ⟨_, rfl, hr⟩ | ⟨e, rfl, hr⟩
      case inl =>
        obtain ⟨rfl, hc⟩ := h₂.of_done
        cases hc
        rw [act_done hr]
        exact .approved hk he hu
      case inr =>
        simp only at h₂
        split at h₂
        case isFalse => exact h₂.not_fail.elim
        case isTrue =>
          obtain ⟨rfl, hc⟩ := h₂.of_done
          cases hc
          rw [act_fail hr]
          exact .skipped

theorem collectSignature_avoids {P : Action → Prop} (hP : ∀ row, ¬P (.createApproval row))
    {g : Signing} {c : Collected} : (collectSignature D g c d).Avoids P := by
  unfold collectSignature
  split
  · exact .done _
  split
  · exact .done _
  split
  · exact .done _
  split
  · exact .fail _
  split
  · exact .done _
  · refine .bind (.attempt (act_avoids (hP _))) fun r => ?_
    cases r with
    | ok v    => exact .done _
    | error e =>
      simp only
      split
      · exact .done _
      · exact .fail _

-- Apart from approvals, nothing is written by the loop over the signatures.
theorem collectSignatures_avoids {P : Action → Prop} (hP : ∀ row, ¬P (.createApproval row))
    {g : Signing} {c : Collected} : (collectSignatures D g c ds).Avoids P := by
  induction ds generalizing c with
  | nil          => exact .done _
  | cons d ds hi => exact .bind (collectSignature_avoids hP) fun _ => hi

theorem collectSignatures_entries (h : (collectSignatures D g c ds).After l (.done c')) :
    ∀ e ∈ l, Action.proposal? e.action = none := by
  have ha : (collectSignatures D g c ds).Avoids fun a => Action.proposal? a ≠ none :=
    collectSignatures_avoids fun _ h => h rfl
  exact fun e he => not_not.mp (ha.entries h e he)

-- All signers are still members when the members are read.
def Signing.Covered (D : Deps) (g : Signing) (ds : List DecoratedSignature) : Prop :=
  ∀ d ∈ ds, ∀ k, matchedMember D g.memberPublicKeys d.hint = some k →
    ∃ u, memberUserId g.members k = some u ∧ D.publicKeyOf u = k

def StoredSignature.keys (l : List StoredSignature) : List String :=
  l.map (·.publicKey)

theorem keys_push : StoredSignature.keys ((c.push k t).approve u).verified =
    StoredSignature.keys c.verified ++ [k] := by
  simp [Collected.push, Collected.approve, StoredSignature.keys]

-- Approvals and signatures are added in pairs.
theorem collectSignatures_done (hc : g.Covered D ds)
    (he : c.existingKeys = StoredSignature.keys c.verified)
    (h : (collectSignatures D g c ds).After l (.done c')) : ∃ as : List TreasuryApproval,
      l.performed = as.map .createApproval ∧
      StoredSignature.keys c'.verified =
        StoredSignature.keys c.verified ++ as.map (D.publicKeyOf ·.userId) ∧
      (∀ a ∈ as, a.proposalId = g.proposal.id ∧ a.txHash = g.proposal.txHash) ∧
      ((StoredSignature.keys c.verified).Nodup → (StoredSignature.keys c'.verified).Nodup) := by
  induction ds generalizing c l with
  | nil =>
    obtain ⟨rfl, hd⟩ := h.of_done
    cases hd
    exact ⟨[], rfl, by simp, by simp, id⟩
  | cons d ds hi =>
    obtain ⟨l₁, l₂, c₁, rfl, h₁, h₂⟩ := h.bind_done
    have hc' : g.Covered D ds := fun d' hd' => hc d' (List.mem_cons_of_mem _ hd')
    have hs := collectSignature_done h₁
    rw [Log.performed_append]
    generalize l₁.performed = w at hs
    cases hs with
    | skipped => exact hi hc' he h₂
    | stranger hk _ hu =>
      have ⟨u, hu', _⟩ := hc d List.mem_cons_self _ hk
      rw [hu] at hu'
      cases hu'
    | @approved k u hk hn hu =>
      have ⟨u', hu', hp⟩ := hc d List.mem_cons_self _ hk
      rw [hu] at hu'
      cases hu'
      have he' : ((c.push k d.signature).approve u).existingKeys =
          StoredSignature.keys ((c.push k d.signature).approve u).verified := by
        rw [keys_push, ← he]
        rfl
      have ⟨as, hw, hv, ha, hd⟩ := hi hc' he' h₂
      refine ⟨g.approval u d.signature :: as, by simp [hw], ?_, ?_, fun hn' => hd ?_⟩
      · rw [hv, keys_push, List.append_assoc, List.map_cons, ← hp]
        rfl
      · exact List.forall_mem_cons.mpr ⟨⟨rfl, rfl⟩, ha⟩
      · rw [he] at hn
        rw [keys_push]
        exact hn'.append (List.nodup_singleton k) (by simpa using hn)

-- No signer is collected twice, and all that are new are members.
theorem collectSignatures_keys (h : (collectSignatures D g c ds).After l (.done c'))
    (he : c.existingKeys = StoredSignature.keys c.verified) (hn : (StoredSignature.keys c.verified).Nodup) :
    (StoredSignature.keys c'.verified).Nodup ∧
    ∀ k ∈ StoredSignature.keys c'.verified, k ∈ StoredSignature.keys c.verified ∨ k ∈ g.memberPublicKeys := by
  induction ds generalizing c l with
  | nil =>
    obtain ⟨_, hd⟩ := h.of_done
    cases hd
    exact ⟨hn, fun _ => .inl⟩
  | cons d ds hi =>
    obtain ⟨l₁, l₂, c₁, rfl, h₁, h₂⟩ := h.bind_done
    have hs := collectSignature_done h₁
    generalize l₁.performed = w at hs
    have hp {k} (hk : matchedMember D g.memberPublicKeys d.hint = some k) (hm : k ∉ c.existingKeys)
        (hv : StoredSignature.keys c₁.verified = StoredSignature.keys c.verified ++ [k])
        (hx : c₁.existingKeys = c.existingKeys ++ [k]) : (StoredSignature.keys c'.verified).Nodup ∧
        ∀ k ∈ StoredSignature.keys c'.verified, k ∈ StoredSignature.keys c.verified ∨ k ∈ g.memberPublicKeys := by
      have hn' : (StoredSignature.keys c₁.verified).Nodup := by
        rw [hv]
        exact hn.append (List.nodup_singleton k) (by simpa [he] using hm)
      have ⟨hn, hm⟩ := hi h₂ (by rw [hx, hv, he]) hn'
      refine ⟨hn, fun k' hk' => ?_⟩
      cases hm k' hk' with
      | inr hk' => exact .inr hk'
      | inl hk' =>
        rw [hv] at hk'
        cases List.mem_append.mp hk' with
        | inl hk' => exact .inl hk'
        | inr hk' => exact .inr (List.mem_singleton.mp hk' ▸ List.mem_of_find?_eq_some hk)
    cases hs with
    | skipped           => exact hi h₂ he hn
    | stranger hk hm _  => exact hp hk hm (by simp [Collected.push, StoredSignature.keys]) rfl
    | approved hk hm _  => exact hp hk hm keys_push rfl

theorem auditSigned_done
    (h : (Prog.forEach (fun s : StoredSignature => auditSigned g n s.publicKey) vs).After l (.done ())) :
    ∀ e ∈ l, ∃ row, e.action = .createAuditLog row := by
  refine h.forEach_done fun _ _ l h e he => ?_
  have ⟨row, hl, _⟩ := auditMultisigActionTx_done h
  rw [hl] at he
  exact ⟨row, by rw [List.mem_singleton.mp he]⟩

-- The updates of the proposal by a request that returns. If Stellar does not accept the envelope, the
-- request does not return.
inductive Records (p : TreasuryProposal) (verified : List StoredSignature) :
    List (String × ProposalData) → Prop
  | awaiting : (verified.length : Int) < p.threshold → Records p verified
      [(p.id, { signatures := some verified, status := some .awaitingSignatures })]
  | confirmed (hash : String) : Records p verified [
      (p.id, { signatures := some verified, status := some .submitted }),
      (p.id, { status := some .confirmed, stellarTxHash := some hash })]

theorem submitMerged_done (h : (submitMerged p tx xdr n key u).After l (.done r)) :
    ∃ hash row, l = [⟨.submitSigned xdr, .ok hash⟩,
      ⟨.updateProposal p.id { status := some .confirmed, stellarTxHash := some hash }, .ok ()⟩,
      ⟨.createAuditLog row, .ok ()⟩] ∧ row.action = .treasuryProposalSubmitted := by
  obtain ⟨l₁, l₂, hash, rfl, h₁, k₁⟩ := h.bind_done
  obtain ⟨l₃, l₄, _, rfl, h₂, k₂⟩ := k₁.bind_done
  obtain ⟨l₅, l₆, _, rfl, h₃, k₃⟩ := k₂.bind_done
  have ⟨row, hl, hr⟩ := auditMultisigActionTx_done h₃
  rw [act_done h₁, act_done h₂, hl, k₃.of_done.1]
  exact ⟨hash, row, rfl, hr⟩

theorem recordRejection_not_done (h : (recordRejection p msg n key u).After l (.done r)) : False := by
  obtain ⟨_, _, _, _, _, h⟩ := h.bind_done
  obtain ⟨_, _, _, _, _, h⟩ := h.bind_done
  exact h.not_fail

theorem mergeAndSubmit_done {id : String} (h : (mergeAndSubmit D id vs key u).After l (.done r)) :
    ∃ p xdr hash row, l = [⟨.findProposal id, .ok (some p)⟩, ⟨.submitSigned xdr, .ok hash⟩,
      ⟨.updateProposal p.id { status := some .confirmed, stellarTxHash := some hash }, .ok ()⟩,
      ⟨.createAuditLog row, .ok ()⟩] ∧ row.action = .treasuryProposalSubmitted := by
  obtain ⟨l₁, l₂, p, rfl, h₁, k₁⟩ := h.bind_done
  cases p with
  | none   => exact k₁.not_fail.elim
  | some p =>
    obtain ⟨l₃, l₄, tx, rfl, h₂, k₂⟩ := k₁.bind_done
    obtain ⟨l₅, l₆, r', rfl, h₃, k₃⟩ := k₂.bind_done
    rcases h₃.attempt_done with ⟨v, rfl, hv⟩ | ⟨e, rfl, he⟩
    case inr => exact (recordRejection_not_done k₃).elim
    case inl =>
      have ⟨hash, row, hl, hr⟩ := submitMerged_done hv
      rw [act_done h₁, (lift_done h₂).1, hl, k₃.of_done.1]
      exact ⟨p, _, hash, row, rfl, hr⟩

-- What `recordSignatures` writes. The proposal that it reads once more is the one it has just updated.
theorem recordSignatures_done (h : (recordSignatures D args g vs).After l (.done r)) :
    l.performed.filterMap Action.approval? = [] ∧
    ((∀ id p, ⟨.findProposal id, .ok (some p)⟩ ∈ l → p.id = id) →
      Records g.proposal vs (l.performed.filterMap Action.proposal?)) := by
  obtain ⟨l₁, l₂, _, rfl, h₁, k₁⟩ := h.bind_done
  obtain ⟨l₃, l₄, _, rfl, h₂, k₂⟩ := k₁.bind_done
  have ha := auditSigned_done h₂
  have hn : l₃.performed.filterMap Action.approval? = [] := nothing_written fun e he => by
    have ⟨row, hr⟩ := ha e he
    simp [hr, Action.approval?]
  have hp : l₃.performed.filterMap Action.proposal? = [] := nothing_written fun e he => by
    have ⟨row, hr⟩ := ha e he
    simp [hr, Action.proposal?]
  rw [act_done h₁]
  split at k₂
  case isFalse ht =>
    rw [k₂.of_done.1]
    simp only [Log.performed_append, Log.performed_cons_ok, Log.performed_nil, List.filterMap_append,
      hn, hp, ht]
    exact ⟨rfl, fun _ => .awaiting (Int.not_le.mp ht)⟩
  case isTrue ht =>
    have ⟨p, xdr, hash, row, hl, _⟩ := mergeAndSubmit_done k₂
    rw [hl]
    refine ⟨?_, fun hf => ?_⟩
    · simp only [Log.performed_append, Log.performed_cons_ok, Log.performed_nil,
        List.filterMap_append, hn]
      rfl
    · have hid := hf g.proposal.id p (by simp)
      simp only [Log.performed_append, Log.performed_cons_ok, Log.performed_nil,
        List.filterMap_append, hp, ht, hid]
      exact .confirmed hash

-- A request that returns has read the proposal, the approvals and the members in this order. It has
-- collected signatures on the basis of that, and finally recorded them.
theorem submitSignatures_done (h : (submitSignatures D args).After l (.done r)) :
    ∃ p as ms message c lc lr,
      let g : Signing := ⟨p, message, args.memberPublicKeys, ms⟩
      l = ⟨.findProposal args.proposalId, .ok (some p)⟩ :: ⟨.findApprovals p.id, .ok as⟩ ::
        ⟨.findMembers args.groupId, .ok ms⟩ :: (lc ++ lr) ∧
      checkProposal p args.groupId = .ok () ∧ checkSubmission D p args.signedXdr = .ok message ∧
      (collectSignatures D g {
        approvedUserIds := (as.filter (·.txHash = p.txHash)).map (·.userId)
        existingKeys    := StoredSignature.keys p.signatures
        verified        := p.signatures
      } (D.sdk.decorated args.signedXdr)).After lc (.done c) ∧
      (recordSignatures D args g c.verified).After lr (.done r) := by
  obtain ⟨l₁, l₂, p, rfl, h₁, k₁⟩ := h.bind_done
  cases p with
  | none   => exact k₁.not_fail.elim
  | some p =>
    obtain ⟨l₃, l₄, _, rfl, h₂, k₂⟩ := k₁.bind_done
    obtain ⟨l₅, l₆, message, rfl, h₃, k₃⟩ := k₂.bind_done
    obtain ⟨l₇, l₈, as, rfl, h₄, k₄⟩ := k₃.bind_done
    obtain ⟨l₉, l₁₀, ms, rfl, h₅, k₅⟩ := k₄.bind_done
    obtain ⟨lc, lr, c, rfl, h₆, k₆⟩ := k₅.bind_done
    rw [act_done h₁, (lift_done h₂).1, (lift_done h₃).1, act_done h₄, act_done h₅]
    exact ⟨p, as, ms, message, c, lc, lr, rfl, (lift_done h₂).2, (lift_done h₃).2, h₆, k₆⟩

-- The proposal and the members as they were read by a request.

def readProposal : TxLog → Option TreasuryProposal
  | ⟨.findProposal _, .ok p⟩ :: _ => p
  | _                             => none

def readMembers : TxLog → List MemberKey
  | _ :: _ :: ⟨.findMembers _, .ok ms⟩ :: _ => ms
  | _                                       => []

def SubmitSignaturesArgs.signers (D : Deps) (args : SubmitSignaturesArgs) : List String :=
  (D.sdk.decorated args.signedXdr).filterMap fun d => matchedMember D args.memberPublicKeys d.hint

-- What a request writes that returns.
structure Signed (D : Deps) (log : TxLog) (p : TreasuryProposal) (verified : List StoredSignature) :
    Prop where
  read      : readProposal log = some p
  approvals : ∀ a ∈ log.performed.filterMap Action.approval?,
    a.proposalId = p.id ∧ a.txHash = p.txHash
  keys      : StoredSignature.keys verified = StoredSignature.keys p.signatures ++
    (log.performed.filterMap Action.approval?).map (D.publicKeyOf ·.userId)
  once      : (StoredSignature.keys p.signatures).Nodup → (StoredSignature.keys verified).Nodup
  records   : Records p verified (log.performed.filterMap Action.proposal?)

theorem submitSignatures_signed (h : (submitSignatures D args).After l (.done r))
    (hf : ∀ id q, ⟨.findProposal id, .ok (some q)⟩ ∈ l → q.id = id)
    (hc : ∀ k ∈ args.signers D, ∃ u, memberUserId (readMembers l) k = some u ∧ D.publicKeyOf u = k) :
    ∃ p vs, ⟨.findProposal args.proposalId, .ok (some p)⟩ ∈ l ∧ Signed D l p vs := by
  obtain ⟨p, as, ms, message, c, lc, lr, rfl, _, _, hcol, hrec⟩ := submitSignatures_done h
  have hcov : Signing.Covered D ⟨p, message, args.memberPublicKeys, ms⟩
      (D.sdk.decorated args.signedXdr) := fun d hd k hk => hc k <| List.mem_filterMap.mpr ⟨d, hd, hk⟩
  have ⟨new, hw, hkeys, hnew, honce⟩ := collectSignatures_done hcov rfl hcol
  have ⟨hra, hrp⟩ := recordSignatures_done hrec
  have hrec := hrp fun id q hq =>
    hf id q <| .tail _ <| .tail _ <| .tail _ <| List.mem_append_right _ hq
  have hnewa : (new.map Action.createApproval).filterMap Action.approval? = new := by
    rw [List.filterMap_map]
    exact List.filterMap_some
  have hnewp : (new.map Action.createApproval).filterMap Action.proposal? = [] := by
    simp [List.filterMap_map, Action.proposal?, Function.comp_def]
  generalize hl : (_ :: _ :: _ :: (lc ++ lr) : TxLog) = l
  have ha : (Log.performed l).filterMap Action.approval? = new := by
    rw [← hl]
    simp only [Log.performed_cons_ok, Log.performed_append, List.filterMap_append, hw, hra, hnewa,
      List.filterMap_cons, Action.approval?, List.append_nil]
  have hp : (Log.performed l).filterMap Action.proposal? =
      (Log.performed lr).filterMap Action.proposal? := by
    rw [← hl]
    simp only [Log.performed_cons_ok, Log.performed_append, List.filterMap_append, hw, hnewp,
      List.filterMap_cons, Action.proposal?, List.nil_append]
  exact ⟨p, c.verified, hl ▸ .head _, hl ▸ rfl, ha ▸ hnew, ha ▸ hkeys, honce, hp ▸ hrec⟩

end Mergepay.Treasury
