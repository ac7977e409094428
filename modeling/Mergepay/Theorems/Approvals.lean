import Mergepay.Treasury.Proposals

namespace Mergepay.Treasury

open Concurrency

-- The system whose processes are submissions of signatures for server-built proposals.

def proposalRequest (D : Deps) (args : SubmitSignaturesArgs) : Tx Unit :=
  (submitSignatures D args).bind fun _ => .done ()

abbrev proposalSystem (D : Deps) :=
  (database D).system env (proposalRequest D)

-- Columns that are never updated.
def TreasuryProposal.fixed (p : TreasuryProposal) : String × String × Int :=
  (p.id, p.txHash, p.threshold)

-- The users with an approval of the proposal's transaction.
def Store.approvers (s : Store) (p : TreasuryProposal) : List String :=
  ((s.approvalsOf p.id).filter (·.txHash = p.txHash)).map (·.userId)

-- Signatures and approvals are about the same users, each counted once, and a proposal only waits for
-- signatures below its threshold.
structure Store.Agrees (D : Deps) (s : Store) (p : TreasuryProposal) : Prop where
  signers : (StoredSignature.keys p.signatures).Perm ((s.approvers p).map D.publicKeyOf)
  once    : (StoredSignature.keys p.signatures).Nodup
  waiting : p.status = .awaitingSignatures → (p.signatures.length : Int) < p.threshold

structure Store.Consistent (D : Deps) (fixed : List (String × String × Int)) (s : Store) : Prop where
  fixed  : s.proposals.map TreasuryProposal.fixed = fixed
  agrees : ∀ p ∈ s.proposals, s.Agrees D p

-- A request is undisturbed if no other one has changed the signatures since it has read them, and if
-- none of its signers has left the group before it has read the members.
def Undisturbed (D : Deps) : TxStep SubmitSignaturesArgs → Store → Prop
  | .act _ _ _,        _ => True
  | .commit args log, s =>
    (∀ p ∈ readProposal log, ∀ row ∈ s.proposals, row.id = p.id → row.signatures = p.signatures) ∧
    ∀ k ∈ args.signers D, k ∈ (readMembers log).map (·.publicKey)

instance (D : Deps) (a : TxStep SubmitSignaturesArgs) (s : Store) :
    Decidable (Undisturbed D a s) :=
  match a with
  | .act _ _ _  => inferInstanceAs (Decidable True)
  | .commit _ _ => inferInstanceAs (Decidable (_ ∧ _))

section

variable {D : Deps} {fixed : List (String × String × Int)} {log : TxLog} {s s' : Store}
  {p q : TreasuryProposal} {new : List TreasuryApproval}

-- Approvals that are added for a proposal.

theorem approvers_self (hs : s'.approvals = s.approvals ++ new)
    (hn : ∀ a ∈ new, a.proposalId = p.id ∧ a.txHash = p.txHash) :
    s'.approvers p = s.approvers p ++ new.map (·.userId) := by
  have hf : (new.filter (·.proposalId = p.id)).filter (·.txHash = p.txHash) = new := by
    rw [List.filter_filter, List.filter_eq_self]
    intro a ha
    simp [hn a ha]
  simp only [Store.approvers, Store.approvalsOf, hs, List.filter_append, hf, List.map_append]

theorem approvers_other (hs : s'.approvals = s.approvals ++ new)
    (hn : ∀ a ∈ new, a.proposalId ≠ p.id) : s'.approvers p = s.approvers p := by
  have hf : new.filter (·.proposalId = p.id) = [] := by
    simpa [List.filter_eq_nil_iff] using hn
  simp only [Store.approvers, Store.approvalsOf, hs, List.filter_append, hf, List.append_nil]

theorem memberUserId_of_mem {ms : List MemberKey} (hk : k ∈ ms.map (·.publicKey))
    (hm : ∀ m ∈ ms, m.publicKey = D.publicKeyOf m.userId) :
    ∃ u, memberUserId ms k = some u ∧ D.publicKeyOf u = k := by
  have ⟨m, hmem, hm'⟩ := List.mem_map.mp hk
  have ⟨m', hr⟩ := Table.row?_isSome_of_mem (k := (·.publicKey)) (List.mem_reverse.mpr hmem)
  rw [hm'] at hr
  refine ⟨m'.userId, by simp [memberUserId, hr], ?_⟩
  have hk' : m'.publicKey = k := Table.key_of_row? hr
  exact (hm m' <| List.mem_reverse.mp <| Table.mem_of_row? hr).symm.trans hk'

-- The rows that a proposal is replaced by.
theorem updated_of_records (h : Records p vs us) (hq : q ∈ us.foldl updateProposals s.proposals) :
    ∃ row ∈ s.proposals, (row.id ≠ p.id ∧ q = row) ∨
      (row.id = p.id ∧ q.fixed = row.fixed ∧ q.signatures = vs ∧
        (q.status = .awaitingSignatures → (vs.length : Int) < p.threshold)) := by
  cases h with
  | awaiting ht =>
    have ⟨row, hr, he⟩ := Table.mem_update.mp hq
    refine ⟨row, hr, ?_⟩
    simp only [decide_eq_true_eq] at he
    split at he
    case isTrue hi  => exact .inr ⟨hi, he ▸ rfl, he ▸ rfl, fun _ => ht⟩
    case isFalse hi => exact .inl ⟨hi, he.symm⟩
  | confirmed hash =>
    have ⟨row', hr', he'⟩ := Table.mem_update.mp hq
    have ⟨row, hr, he⟩ := Table.mem_update.mp hr'
    refine ⟨row, hr, ?_⟩
    simp only [decide_eq_true_eq] at he he'
    split at he
    case isTrue hi =>
      subst he
      rw [TreasuryProposal.set_id, if_pos hi] at he'
      subst he'
      exact .inr ⟨hi, rfl, rfl, fun h => by cases h⟩
    case isFalse hi =>
      subst he
      rw [if_neg hi] at he'
      exact .inl ⟨hi, he'.symm⟩

theorem fixed_view : ((database D).view log s).proposals.map TreasuryProposal.fixed =
    s.proposals.map TreasuryProposal.fixed := by
  rw [view_proposals]
  generalize log.performed.filterMap Action.proposal? = us
  induction us generalizing s with
  | nil          => rfl
  | cons u us hi => exact (hi (s := { s with proposals := _ })).trans <| Table.map_update fun _ => rfl

theorem approvers_congr (h : p.fixed = q.fixed) : s.approvers p = s.approvers q := by
  obtain ⟨hid, hrest⟩ := Prod.ext_iff.mp h
  have hid : p.id = q.id := hid
  have htx : p.txHash = q.txHash := (Prod.ext_iff.mp hrest).1
  rw [Store.approvers, Store.approvers, hid, htx]

theorem undisturbed_commit (hf : (fixed.map (·.1)).Nodup) (hi : s.Consistent D fixed)
    (hc : Undisturbed D (.commit args log) s) (ha : (proposalRequest D args).After log (.done ()))
    (hg : (database D).Genuine (Store.Consistent D fixed) log) :
    ((database D).view log s).Consistent D fixed := by
  have ⟨r, ha⟩ := ha.discard_done
  have ⟨hcur, hmem⟩ := hc
  have hfound (id : String) (q : TreasuryProposal) (hq : ⟨.findProposal id, .ok (some q)⟩ ∈ log) :
      q.id = id := by
    have ⟨_, _, _, hq⟩ := found_proposal hg hq
    exact Table.key_of_row? hq
  have hms : ∀ m ∈ readMembers log, m.publicKey = D.publicKeyOf m.userId := by
    unfold readMembers
    split
    case h_1 => exact found_members hg <| .tail _ <| .tail _ <| .head _
    case h_2 => simp
  have ⟨p, vs, hp, hs⟩ := submitSignatures_signed ha hfound fun k hk =>
    memberUserId_of_mem (hmem k hk) hms
  -- The proposal that was read is a row of the table, up to the columns that are updated.
  have hp : p.fixed ∈ fixed := by
    have ⟨s₀, l₀, hi₀, hp⟩ := found_proposal hg hp
    rw [← hi₀.fixed, ← fixed_view]
    exact List.mem_map_of_mem <| Table.mem_of_row? hp
  refine ⟨fixed_view.trans hi.fixed, fun q hq => ?_⟩
  rw [view_proposals] at hq
  have ⟨row, hr, h⟩ := updated_of_records hs.records hq
  have hrow := hi.agrees row hr
  rcases h with ⟨hid, rfl⟩ | ⟨hid, hq, hsig, hwait⟩
  case inl =>
    have ho : ((database D).view log s).approvers q = s.approvers q :=
      approvers_other view_approvals fun a ha => (hs.approvals a ha).1 ▸ Ne.symm hid
    exact ⟨ho ▸ hrow.signers, hrow.once, hrow.waiting⟩
  case inr =>
    have hsame : row.fixed = p.fixed :=
      List.inj_on_of_nodup_map hf (hi.fixed ▸ List.mem_map_of_mem hr) hp hid
    have hsig' := hcur p hs.read row hr hid
    have hqp : q.fixed = p.fixed := hq.trans hsame
    have hth : q.threshold = p.threshold := (Prod.ext_iff.mp (Prod.ext_iff.mp hqp).2).2
    have happ : ((database D).view log s).approvers q =
        s.approvers row ++ (log.performed.filterMap Action.approval?).map (·.userId) := by
      rw [approvers_congr hqp, approvers_congr hsame]
      exact approvers_self view_approvals hs.approvals
    refine ⟨?_, ?_, fun hst => ?_⟩
    · rw [hsig, happ, hs.keys, ← hsig', List.map_append, List.map_map]
      exact hrow.signers.append_right _
    · rw [hsig]
      exact hs.once (hsig' ▸ hrow.once)
    · rw [hsig, hth]
      exact hwait hst

theorem undisturbed_keeps (hf : (fixed.map (·.1)).Nodup) :
    (database D).Keeps env (proposalRequest D) (Undisturbed D) (Store.Consistent D fixed) where
  commit := fun hi hc _ ha hg => undisturbed_commit hf hi hc ha hg
  env    := fun hi he => by
    obtain ⟨_, _, rfl⟩ := env_eq_some he
    refine ⟨hi.fixed, fun p hp => ?_⟩
    have ⟨signers, once, waiting⟩ := hi.agrees p hp
    exact ⟨signers, once, waiting⟩

-- As long as no request is disturbed, the stored signatures and the approvals of a proposal are about
-- the same users.
theorem no_lost_approvals {c : TxConfig SubmitSignaturesArgs} (hf : (s.proposals.map (·.id)).Nodup)
    (h : ∀ p ∈ s.proposals, s.Agrees D p) (r : (proposalSystem D).Run (Undisturbed D) ⟨s, []⟩ c) :
    ∀ p ∈ c.shared.proposals, c.shared.Agrees D p := by
  have hk : (database D).Keeps env (proposalRequest D) (Undisturbed D)
      (Store.Consistent D (s.proposals.map TreasuryProposal.fixed)) :=
    undisturbed_keeps <| by
      rw [List.map_map]
      exact hf
  exact (hk.law r ⟨rfl, h⟩).agrees

end

-- Two members sign a proposal.

def sampleProposal : TreasuryProposal := {
  id        := "proposal"
  groupId   := "group"
  xdr       := ""
  txHash    := "hash"
  threshold := 3
  status    := .awaitingSignatures
}

def signedBy (user : String) : SubmitSignaturesArgs := {
  proposalId       := "proposal"
  groupId          := "group"
  memberPublicKeys := ["alice", "bob"]
  signedXdr        := user
  userId           := user
}

def sampleStore : Store := {
  members   := sampleMembers
  proposals := [sampleProposal]
}

-- Seven actions, the last of which is the commit.
def signing (n : Nat) : List (Label Choice Event SubmitSignaturesArgs) :=
  Label.acts n (List.replicate 7 .plain)

theorem no_lost_approvals_sample : ∃ c : TxConfig SubmitSignaturesArgs,
    (∃ p ∈ c.shared.proposals, p.signatures.length = 2) ∧
    ∀ p ∈ c.shared.proposals, c.shared.Agrees sampleDeps p := by
  have ⟨c, r, hc⟩ := System.exists_run_of_play (C := Undisturbed sampleDeps)
    (S := proposalSystem sampleDeps) (c := ⟨sampleStore, []⟩)
    (p := fun c => c.shared.proposals.any (·.signatures.length = 2))
    (.spawn (signedBy "alice") :: signing 0 ++ .spawn (signedBy "bob") :: signing 1)
    (by decide +kernel)
  refine ⟨c, by simpa using hc, no_lost_approvals (by decide) ?_ r⟩
  intro p hp
  obtain rfl := List.mem_singleton.mp hp
  exact ⟨.refl _, .nil, fun _ => by decide⟩

-- Both requests read the proposal before one of them commits.
def racing : List (Label Choice Event SubmitSignaturesArgs) :=
  .flatten [
    [.spawn (signedBy "alice"), .spawn (signedBy "bob"), .act 0 .plain, .act 1 .plain],
    Label.acts 0 (List.replicate 6 .plain), Label.acts 1 (List.replicate 6 .plain)
  ]

theorem approval_lost : ∃ c : TxConfig SubmitSignaturesArgs,
    (proposalSystem sampleDeps).Run (fun _ _ => True) ⟨sampleStore, []⟩ c ∧
    ∃ p ∈ c.shared.proposals, c.shared.approvers p = ["alice", "bob"] ∧
      StoredSignature.keys p.signatures = ["bob"] ∧ ¬c.shared.Agrees sampleDeps p := by
  have ⟨c, r, hc⟩ := System.exists_run_of_play (C := fun _ _ => True)
    (S := proposalSystem sampleDeps) (c := ⟨sampleStore, []⟩)
    (p := fun c => c.shared.proposals.any fun p => c.shared.approvers p = ["alice", "bob"] ∧
      StoredSignature.keys p.signatures = ["bob"]) racing (by decide +kernel)
  have ⟨p, hp, ha, hk⟩ : ∃ p ∈ c.shared.proposals, c.shared.approvers p = ["alice", "bob"] ∧
      StoredSignature.keys p.signatures = ["bob"] := by simpa using hc
  refine ⟨c, r, p, hp, ha, hk, fun h => ?_⟩
  have hl := h.signers.length_eq
  simp [ha, hk] at hl

end Mergepay.Treasury
