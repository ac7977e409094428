import Mergepay.Treasury.Signatures

namespace Mergepay.Treasury

open Concurrency

-- The system whose processes are submissions of signatures for collected proposals.

def collectorRequest (D : Deps) (args : SubmitSignatureArgs) : Tx Unit :=
  (submitSignature D args).bind fun _ => .done ()

abbrev collectorSystem (D : Deps) :=
  (database D).system env (collectorRequest D)

def Store.storedWeight (s : Store) (id : String) : Nat :=
  ((s.signaturesOf id).map (·.weight)).sum

-- A proposal does not wait for signatures once the stored ones are enough.
def Store.Decided (s : Store) : Prop :=
  ∀ p ∈ s.txProposals, p.requiredWeight ≤ s.storedWeight p.id → p.status ≠ .pendingSignatures

instance : DecidablePred Store.Decided :=
  fun _ => inferInstanceAs (Decidable (∀ p ∈ _, _))

-- A request that finds too little weight is uncontended if its last query would still find the same
-- signatures when it commits.
def Uncontended (D : Deps) : TxStep SubmitSignatureArgs → Store → Prop
  | .act _ _ _,     _ => True
  | .commit _ log, s =>
    ∀ p ∈ readTxProposal log, ∀ account ∈ readAccount log, ∀ counted ∈ countedSignatures log,
      (counted.map (·.weight)).sum < account.thresholds.high →
      ((database D).view log s).signaturesOf p.id = counted

instance (D : Deps) (a : TxStep SubmitSignatureArgs) (s : Store) : Decidable (Uncontended D a s) :=
  match a with
  | .act _ _ _  => inferInstanceAs (Decidable True)
  | .commit _ _ => inferInstanceAs (Decidable (∀ p ∈ _, _))

section

variable {D : Deps} {log : TxLog} {s s' : Store} {p q : TreasuryTxProposal}

-- The rows that a proposal is replaced by.
theorem updated_of_decides (h : Decides p account counted us)
    (hq : q ∈ us.foldl updateTxProposals s.txProposals) :
    (q ∈ s.txProposals ∧ q.id ≠ p.id) ∨ q.status = .submitted ∨
      (q.id = p.id ∧ q.requiredWeight = account.thresholds.high ∧
        (counted.map (·.weight)).sum < account.thresholds.high) := by
  cases h with
  | pending hw =>
    have ⟨row, hr, he⟩ := Table.mem_update.mp hq
    simp only [decide_eq_true_eq] at he
    split at he
    case isTrue hi  => exact .inr <| .inr ⟨he ▸ hi, he ▸ rfl, hw⟩
    case isFalse hi => exact .inl ⟨he ▸ hr, he ▸ hi⟩
  | submitted weight hash =>
    have ⟨row', hr', he'⟩ := Table.mem_update.mp hq
    have ⟨row, hr, he⟩ := Table.mem_update.mp hr'
    simp only [decide_eq_true_eq] at he he'
    split at he
    case isTrue hi =>
      subst he
      rw [TreasuryTxProposal.set_id, if_pos hi] at he'
      exact .inr <| .inl <| he' ▸ rfl
    case isFalse hi =>
      subst he
      rw [if_neg hi] at he'
      exact .inl ⟨he' ▸ hr, he' ▸ hi⟩

theorem storedWeight_other (hs : s'.signatures = s.signatures ++ new)
    (hn : ∀ x ∈ new, x.proposalId ≠ i) : s'.storedWeight i = s.storedWeight i := by
  have hf : new.filter (·.proposalId = i) = [] := by
    simpa [List.filter_eq_nil_iff] using hn
  simp only [Store.storedWeight, Store.signaturesOf, hs, List.filter_append, hf, List.append_nil]

theorem uncontended_commit (hd : s.Decided) (hc : Uncontended D (.commit args log) s)
    (ha : (collectorRequest D args).After log (.done ())) :
    ((database D).view log s).Decided := by
  have ⟨r, ha⟩ := ha.discard_done
  obtain ⟨l, ld, g, rfl, hg, ha⟩ := ha.bind_done
  have ⟨_, _, _, _, _, _, hg⟩ := gatherSignatures_done hg
  have ⟨hdec, hsig, hfound⟩ := decideThreshold_done ha
  have hc := hc g.proposal hg.readTxProposal_eq g.account hg.readAccount_eq g.allSignatures
    (hg.countedSignatures_eq hfound)
  intro q hq hw
  rw [view_txProposals, Log.performed_append, List.filterMap_append, hg.no_update,
    List.nil_append] at hq
  rcases updated_of_decides hdec hq with ⟨hq, hid⟩ | hst | ⟨hid, hreq, hlt⟩
  case inl =>
    have ho : ((database D).view (l ++ ld) s).storedWeight q.id = s.storedWeight q.id := by
      refine storedWeight_other view_signatures fun x hx => ?_
      rw [Log.performed_append, List.filterMap_append, hsig, List.append_nil] at hx
      have ⟨_, _, hx⟩ := hg.written hx
      exact hx ▸ Ne.symm hid
    exact hd q hq (ho ▸ hw)
  case inr.inl => simp [hst]
  case inr.inr =>
    rw [hid, hreq, Store.storedWeight, hc hlt] at hw
    exact absurd hw (Nat.not_le.mpr hlt)

theorem uncontended_keeps :
    (database D).Keeps env (collectorRequest D) (Uncontended D) Store.Decided where
  commit := fun hd hc _ ha _ => uncontended_commit hd hc ha
  env    := fun hd he => by
    obtain ⟨_, _, rfl⟩ := env_eq_some he
    exact hd

-- As long as nobody else commits a signature between the last query of an insufficient request and
-- its commit, the collector does not stall.
theorem never_stalls {c : TxConfig SubmitSignatureArgs} (h : s.Decided)
    (r : (collectorSystem D).Run (Uncontended D) ⟨s, []⟩ c) : c.shared.Decided :=
  uncontended_keeps.law r h

end

-- Two administrators sign a transaction of an account with equal signers.

def sampleTxProposal : TreasuryTxProposal := {
  id             := "proposal"
  groupId        := "group"
  xdr            := ""
  txHash         := "hash"
  sourceAccount  := "treasury"
  requiredWeight := 2
}

def collectedFrom (user : String) : SubmitSignatureArgs := {
  proposalId := "proposal"
  groupId    := "group"
  userId     := user
  signedXdr  := user
}

def sampleAccount : AccountSnapshot := {
  exists_    := true
  signers    := [⟨"alice", 1⟩, ⟨"bob", 1⟩]
  thresholds := ⟨1, 1, 2⟩
}

def collectorStore : Store := {
  members     := sampleMembers
  txProposals := [sampleTxProposal]
}

-- The actions of a request up to the point where it counts the signatures.
def counting (n : Nat) (account : AccountSnapshot) : List (Label Choice Event SubmitSignatureArgs) :=
  Label.acts n [.plain, .plain, .account account, .plain, .plain, .plain, .plain, .plain]

def deferring (n : Nat) : List (Label Choice Event SubmitSignatureArgs) :=
  Label.acts n [.plain, .plain]

def submitting (n : Nat) : List (Label Choice Event SubmitSignatureArgs) :=
  Label.acts n [.plain, .plain, .accepted "hash", .plain, .plain, .plain]

theorem never_stalls_sample : ∃ c : TxConfig SubmitSignatureArgs,
    (∃ p ∈ c.shared.txProposals, p.status = .submitted) ∧ c.shared.Decided := by
  have ⟨c, r, hc⟩ := System.exists_run_of_play (C := Uncontended sampleDeps)
    (S := collectorSystem sampleDeps) (c := ⟨collectorStore, []⟩)
    (p := fun c => c.shared.txProposals.any (·.status = .submitted))
    (.spawn (collectedFrom "alice") :: counting 0 sampleAccount ++ deferring 0 ++
      .spawn (collectedFrom "bob") :: counting 1 sampleAccount ++ submitting 1) (by decide +kernel)
  exact ⟨c, by simpa using hc, never_stalls (by decide) r⟩

-- Both administrators count before the other one commits.
def deferringBoth : List (Label Choice Event SubmitSignatureArgs) :=
  .spawn (collectedFrom "alice") :: .spawn (collectedFrom "bob") ::
    counting 0 sampleAccount ++ counting 1 sampleAccount ++ deferring 0 ++ deferring 1

theorem collector_stalls : ∃ c : TxConfig SubmitSignatureArgs,
    (collectorSystem sampleDeps).Run (fun _ _ => True) ⟨collectorStore, []⟩ c ∧
    c.procs.length = 2 ∧ (∀ p ∈ c.procs, p.isDone = true) ∧ ¬c.shared.Decided := by
  have ⟨c, r, hc⟩ := System.exists_run_of_play (C := fun _ _ => True)
    (S := collectorSystem sampleDeps) (c := ⟨collectorStore, []⟩)
    (p := fun c => c.procs.length = 2 ∧ (∀ p ∈ c.procs, p.isDone = true) ∧ ¬c.shared.Decided)
    deferringBoth (by decide +kernel)
  exact ⟨c, r, of_decide_eq_true hc⟩

end Mergepay.Treasury
