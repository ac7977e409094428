import Mathlib.Algebra.Order.BigOperators.Group.List
import Mathlib.Data.List.Dedup
import Mergepay.Theorems.Threshold

namespace Mergepay.Treasury

open Concurrency

-- The distinct keys whose signatures are attached to an envelope.
def attachedSigners (D : Deps) (base : Stellar.Transaction) (l : List TreasurySignature) :
    List String :=
  ((l.filter fun x => (D.sdk.signatureHint x.signerPublicKey).isSome ∧
    D.sdk.verify x.signerPublicKey (D.sdk.hash base) x.signature).map (·.signerPublicKey)).dedup

-- The envelope that is submitted according to a log, along with the weight that its signers have by
-- the account that was loaded, and the threshold of that account.
def submission (D : Deps) (log : TxLog) : Option (String × Nat × Nat) := do
  let p ← readTxProposal log
  let account ← readAccount log
  let counted ← countedSignatures log
  let base ← (parseTreasuryXdr D p.xdr "Stored proposal envelope is corrupt").toOption
  return (mergedXdr D base p.xdr counted,
    ((attachedSigners D base counted).map account.weightOf).sum, account.thresholds.high)

def Authorized (D : Deps) (log : TxLog) (xdr : String) : Prop :=
  ∃ weight high, submission D log = some (xdr, weight, high) ∧ high ≤ weight

-- No signature is counted for more than its signer weighs by now.
def WeightsCurrent (log : TxLog) : Prop :=
  ∀ account ∈ readAccount log, ∀ counted ∈ countedSignatures log, ∀ x ∈ counted,
    x.weight ≤ account.weightOf x.signerPublicKey

instance : DecidablePred WeightsCurrent :=
  fun _ => inferInstanceAs (Decidable (∀ account ∈ _, ∀ counted ∈ _, ∀ x ∈ _, _))

-- What a process is about to submit, and what it has done before.
def pendingSubmission : Prog (TxStep SubmitSignatureArgs) Database.Step.Answer Failure Unit →
    Option (TxLog × String)
  | .call (.act _ log (.submitSigned xdr)) _ => some (log, xdr)
  | _                                        => none

-- Columns that are never updated.
def TreasuryTxProposal.fixed (p : TreasuryTxProposal) : String × String × String :=
  (p.id, p.xdr, p.txHash)

-- The recorded hash is the one of the stored envelope.
def Hashed (D : Deps) (fixed : String × String × String) : Prop :=
  ∃ tx, D.sdk.fromXDR fixed.2.1 = some (.transaction tx) ∧ D.sdk.hash tx = fixed.2.2

-- A signature has been made by its signer for the transaction of its proposal.
structure TreasurySignature.Valid (D : Deps) (fixed : List (String × String × String))
    (x : TreasurySignature) : Prop where
  key      : x.signerPublicKey = D.publicKeyOf x.signerUserId
  hint     : (D.sdk.signatureHint x.signerPublicKey).isSome
  verified : ∀ f ∈ fixed, f.1 = x.proposalId →
    D.sdk.verify x.signerPublicKey f.2.2 x.signature = true

def TreasurySignature.index (x : TreasurySignature) : String × String :=
  (x.proposalId, x.signerUserId)

structure Store.Sealed (D : Deps) (fixed : List (String × String × String)) (s : Store) : Prop where
  columns : s.txProposals.map TreasuryTxProposal.fixed = fixed
  valid   : ∀ x ∈ s.signatures, x.Valid D fixed
  unique  : (s.signatures.map TreasurySignature.index).Nodup

section

variable {D : Deps} {fixed : List (String × String × String)} {log : TxLog} {s : Store}

theorem fixed_txView : ((database D).view log s).txProposals.map TreasuryTxProposal.fixed =
    s.txProposals.map TreasuryTxProposal.fixed := by
  rw [view_txProposals]
  generalize log.performed.filterMap Action.txProposal? = us
  induction us generalizing s with
  | nil          => rfl
  | cons u us hi => exact (hi (s := { s with txProposals := _ })).trans <| Table.map_update fun _ => rfl

-- The unique index is respected by whatever is admitted.
theorem unique_effect (h : (s.signatures.map TreasurySignature.index).Nodup)
    (ha : admits a s = true) : ((effect a s).signatures.map TreasurySignature.index).Nodup := by
  cases a
  case createSignature row =>
    have hn : row.index ∉ s.signatures.map TreasurySignature.index := by
      intro hm
      have ⟨x, hx, he⟩ := List.mem_map.mp hm
      have ⟨hp, hu⟩ := Prod.ext_iff.mp he
      simp only [admits, decide_eq_true_eq] at ha
      exact ha <| List.any_eq_true.mpr ⟨x, hx, decide_eq_true ⟨hp, hu⟩⟩
    change ((s.signatures ++ [row]).map TreasurySignature.index).Nodup
    rw [List.map_append]
    exact h.append (List.nodup_singleton _) (by simpa using hn)
  all_goals exact h

theorem unique_view (h : (s.signatures.map TreasurySignature.index).Nodup)
    (ha : (database D).admitted log s = true) :
    (((database D).view log s).signatures.map TreasurySignature.index).Nodup := by
  induction log generalizing s with
  | nil => exact h
  | cons e l hi =>
    have ⟨hp, ha⟩ := (Bool.and_eq_true ..).mp ha
    refine hi ?_ ha
    obtain ⟨a, r⟩ := e
    cases r with
    | ok v    => exact unique_effect h hp
    | error e => exact h

section

variable {args : SubmitSignatureArgs} {g : Gathered} {l ld : TxLog} {hash : String} {recorded : TxLog}
  (hf : (fixed.map (·.1)).Nodup) (hg : Gathers D args g members now existing hash new recorded l)
  (hn : (database D).Genuine (Store.Sealed D fixed) (l ++ ld))
include hg hn

theorem Gathers.proposal_mem : g.proposal.fixed ∈ fixed := by
  have ⟨s, _, hs, hp⟩ := found_txProposal hn (List.mem_append_left ld hg.found_proposal)
  rw [← hs.columns, ← fixed_txView]
  exact List.mem_map_of_mem <| Table.mem_of_row? hp

include hf

-- The rows that are inserted by a request are valid.
theorem Gathers.written_valid : ∀ x ∈ l.performed.filterMap Action.signature?, x.Valid D fixed := by
  intro x hx
  have ⟨y, hy, hxy⟩ := hg.written hx
  have hsel := selectSignatures_ok hg.selected y hy
  have hm := found_admins hn (List.mem_append_left ld hg.found_members)
  have ⟨m, hm', hu, hk, _⟩ := mem_authorizedAdmins (hg.admins ▸ hsel.admin)
  subst hxy
  refine ⟨?_, hsel.hint, fun f hff he => ?_⟩
  · exact hk.trans <| (hm m hm').trans <| congrArg _ hu.symm
  · have hp := List.inj_on_of_nodup_map hf hff (hg.proposal_mem hn) he
    rw [hp]
    have hv := hsel.verified
    rw [checkCollected_ok hg.checked] at hv
    exact hv

-- The signatures that are counted are valid, and no user is counted twice.
theorem Gathers.counted_valid : (∀ x ∈ g.allSignatures, x.Valid D fixed ∧ x.proposalId = g.proposal.id) ∧
    (g.allSignatures.map (·.signerUserId)).Nodup := by
  have hw := hg.written_valid hf hn
  have ⟨pre, hpre⟩ : ∃ pre, l = pre ++ [⟨.findSignatures g.proposal.id, .ok g.allSignatures⟩] :=
    ⟨_, hg.log⟩
  subst hpre
  have ⟨x, s, hs, had, hans⟩ := hn pre _ ld (List.append_assoc ..)
  have hall : ((database D).view pre s).signaturesOf g.proposal.id = g.allSignatures :=
    Except.ok.inj <| Option.some.inj <| answer_plain hans rfl
  have hmem y (hy : y ∈ g.allSignatures) :
      y ∈ ((database D).view pre s).signatures ∧ y.proposalId = g.proposal.id := by
    simpa [← hall, Store.signaturesOf] using hy
  refine ⟨fun y hy => ⟨?_, (hmem y hy).2⟩, ?_⟩
  · have hy := (hmem y hy).1
    rw [view_signatures] at hy
    rcases List.mem_append.mp hy with hy | hy
    case inl => exact hs.valid y hy
    case inr =>
      refine hw y ?_
      rw [Log.performed_append, List.filterMap_append]
      exact List.mem_append_left _ hy
  · have hu := unique_view hs.unique had
    have hu : (g.allSignatures.map TreasurySignature.index).Nodup := by
      rw [← hall]
      exact hu.sublist <| List.filter_sublist.map _
    have he : g.allSignatures.map TreasurySignature.index =
        (g.allSignatures.map (·.signerUserId)).map (Prod.mk g.proposal.id) := by
      rw [List.map_map]
      exact List.map_congr_left fun y hy => by simp [TreasurySignature.index, (hmem y hy).2]
    exact .of_map _ (he ▸ hu)

-- All signatures that are counted are attached.
theorem Gathers.attached_eq {base : Stellar.Transaction} (hb : D.sdk.hash base = g.proposal.txHash) :
    attachedSigners D base g.allSignatures = g.allSignatures.map (·.signerPublicKey) := by
  have ⟨hv, hu⟩ := hg.counted_valid hf hn
  have hall : g.allSignatures.filter (fun x => (D.sdk.signatureHint x.signerPublicKey).isSome ∧
      D.sdk.verify x.signerPublicKey (D.sdk.hash base) x.signature) = g.allSignatures := by
    refine List.filter_eq_self.mpr fun x hx => ?_
    have ⟨hx, hi⟩ := hv x hx
    exact decide_eq_true ⟨hx.hint, hb ▸ hx.verified _ (hg.proposal_mem hn) hi.symm⟩
  have hk : g.allSignatures.map (·.signerPublicKey) =
      (g.allSignatures.map (·.signerUserId)).map D.publicKeyOf := by
    rw [List.map_map]
    exact List.map_congr_left fun x hx => (hv x hx).1.key
  rw [attachedSigners, hall, hk]
  exact List.Nodup.dedup <| hu.map D.publicKeyOf_injective

end

theorem sealed_keeps (hf : (fixed.map (·.1)).Nodup) : (database D).Keeps env (collectorRequest D)
    (fun _ _ => True) (Store.Sealed D fixed) where
  commit := fun {args log s} hs _ had ha hn => by
    have ⟨r, ha⟩ := ha.discard_done
    obtain ⟨l, ld, g, rfl, hg, ha⟩ := ha.bind_done
    have ⟨_, _, _, _, _, _, hg⟩ := gatherSignatures_done hg
    have ⟨_, hsig, _⟩ := decideThreshold_done ha
    refine ⟨fixed_txView.trans hs.columns, fun x hx => ?_, unique_view hs.unique had⟩
    rw [view_signatures, Log.performed_append, List.filterMap_append, hsig, List.append_nil] at hx
    rcases List.mem_append.mp hx with hx | hx
    case inl => exact hs.valid x hx
    case inr => exact hg.written_valid hf hn x hx
  env := fun hs he => by
    obtain ⟨_, _, rfl⟩ := env_eq_some he
    exact ⟨hs.columns, hs.valid, hs.unique⟩

theorem pendingSubmission_eq {xdr : String} (h : pendingSubmission p = some (log, xdr)) :
    ∃ args k, p = .call (.act args log (.submitSigned xdr)) k := by
  unfold pendingSubmission at h
  split at h
  case h_1 args _ _ k =>
    cases h
    exact ⟨args, k, rfl⟩
  case h_2 => cases h

-- Whatever has happened before, an envelope whose signatures still weigh what they were counted for
-- is only submitted if its signers are authorized to do so.
theorem submission_authorized {c : TxConfig SubmitSignatureArgs} {xdr : String}
    (hf : (fixed.map (·.1)).Nodup) (hh : ∀ f ∈ fixed, Hashed D f) (hs : s.Sealed D fixed)
    (r : (collectorSystem D).Run (fun _ _ => True) ⟨s, []⟩ c) (hp : p ∈ c.procs)
    (hx : pendingSubmission p = some (log, xdr)) (hw : WeightsCurrent log) : Authorized D log xdr := by
  obtain ⟨args, k, rfl⟩ := pendingSubmission_eq hx
  have hr := (Database.Reached.init hs).run (sealed_keeps hf) r
  have ⟨_, ha, hn⟩ := hr.pending hp
  have ⟨_, ha⟩ := ha.discard_call
  have hsub : Action.Submits (.submitSigned xdr) := trivial
  obtain ⟨l, ld, g, rfl, hg, ha⟩ := gatherSignatures_avoids.bind_call hsub ha
  have ⟨_, _, _, _, _, _, hg⟩ := gatherSignatures_done hg
  have ⟨hhigh, ⟨base, hbase, hxdr⟩, data, row, hld⟩ := decideThreshold_call ha
  have hcounted : countedSignatures (l ++ ld) = some g.allSignatures :=
    hg.countedSignatures_eq <| by rw [hld]; rfl
  have ⟨tx, htx, hhash⟩ := hh _ (hg.proposal_mem hn)
  have hb : base = tx := by
    have htx : D.sdk.fromXDR g.proposal.xdr = some (.transaction tx) := htx
    simpa [parseTreasuryXdr, htx] using hbase.symm
  subst hb
  have hatt := hg.attached_eq hf hn hhash
  have hsum : (g.allSignatures.map (·.weight)).sum ≤
      (g.allSignatures.map fun x => g.account.weightOf x.signerPublicKey).sum :=
    List.sum_le_sum fun x hx => hw g.account hg.readAccount_eq g.allSignatures hcounted x hx
  refine ⟨((attachedSigners D base g.allSignatures).map g.account.weightOf).sum,
    g.account.thresholds.high, ?_, ?_⟩
  · simp [submission, hg.readTxProposal_eq, hg.readAccount_eq, hcounted, hbase, hxdr, Except.toOption]
  · rw [hatt, List.map_map]
    exact hhigh.trans hsum

end

-- A request that submits has performed all but its last four actions.
def untilSubmission (n : Nat) (account : AccountSnapshot) :
    List (Label Choice Event SubmitSignatureArgs) :=
  counting n account ++ Label.acts n [.plain, .plain]

def signedAlone (account : AccountSnapshot) : List (Label Choice Event SubmitSignatureArgs) :=
  .spawn (collectedFrom "alice") :: counting 0 sampleAccount ++ deferring 0 ++
    .spawn (collectedFrom "bob") :: untilSubmission 1 account

theorem submission_authorized_sample : ∃ log : TxLog, Authorized sampleDeps log "alicebob" := by
  have ⟨c, r, hc⟩ := System.exists_run_of_play (C := fun _ _ => True)
    (S := collectorSystem sampleDeps) (c := ⟨collectorStore, []⟩)
    (p := fun c => c.procs.any fun p => (pendingSubmission p).any fun (log, xdr) =>
      xdr = "alicebob" ∧ WeightsCurrent log) (signedAlone sampleAccount) (by decide +kernel)
  have ⟨p, hp, hx⟩ := List.any_eq_true.mp hc
  have ⟨⟨log, xdr⟩, hx, h⟩ := (Option.any_eq_true ..).mp hx
  obtain ⟨rfl, hw⟩ := of_decide_eq_true h
  have hs : collectorStore.Sealed sampleDeps [sampleTxProposal.fixed] := ⟨rfl, by simp [collectorStore], .nil⟩
  refine ⟨log, submission_authorized (by decide) ?_ hs r hp hx hw⟩
  simpa using ⟨sampleTransaction, rfl, rfl⟩

-- The first signer is removed from the account before the second one signs.
def reducedAccount : AccountSnapshot := { sampleAccount with signers := [⟨"bob", 1⟩] }

theorem submission_unauthorized : ∃ (c : TxConfig SubmitSignatureArgs) (log : TxLog),
    (collectorSystem sampleDeps).Run (fun _ _ => True) ⟨collectorStore, []⟩ c ∧
    (∃ p ∈ c.procs, pendingSubmission p = some (log, "alicebob")) ∧
    submission sampleDeps log = some ("alicebob", 1, 2) ∧ ¬Authorized sampleDeps log "alicebob" := by
  have ⟨c, r, hc⟩ := System.exists_run_of_play (C := fun _ _ => True)
    (S := collectorSystem sampleDeps) (c := ⟨collectorStore, []⟩)
    (p := fun c => c.procs.any fun p => (pendingSubmission p).any fun (log, xdr) =>
      xdr = "alicebob" ∧ submission sampleDeps log = some ("alicebob", 1, 2))
    (signedAlone reducedAccount) (by decide +kernel)
  have ⟨p, hp, hx⟩ := List.any_eq_true.mp hc
  have ⟨⟨log, xdr⟩, hx, h⟩ := (Option.any_eq_true ..).mp hx
  obtain ⟨rfl, hs⟩ := of_decide_eq_true h
  refine ⟨c, log, r, ⟨p, hp, hx⟩, hs, fun ⟨weight, high, ha, hle⟩ => ?_⟩
  cases hs.symm.trans ha
  exact absurd hle (by decide)

end Mergepay.Treasury
