import Mergepay.Stellar.Intent
import Mergepay.Theorems.Weight
import Mergepay.Treasury.Envelopes

namespace Mergepay.Treasury

open Concurrency Stellar

-- What the envelopes that may be signed for a treasury are
structure TreasuryOperation.Conforms (E : EnvelopeSdk) (treasury : String) (operation : TreasuryOperation) : Prop where
  source      : ∀ source ∈ operation.source, source = "" ∨ source = treasury
  amount      : operation.type = some "payment" → ∃ v, Money.validateAmount (operation.amount.getD "") = .ok v
  destination : operation.type = some "payment" ∨ operation.type = some "createAccount" ∨
    operation.type = some "accountMerge" →
    E.isValidEd25519PublicKey (operation.destination.getD "") = true ∨
    E.isValidMed25519PublicKey (operation.destination.getD "") = true

structure Conforms (E : EnvelopeSdk) (tx : Transaction) (policy : TreasuryEnvelopePolicy) : Prop where
  source     : tx.source = policy.treasuryAccountPublicKey
  nonempty   : E.operations tx ≠ []
  count      : (E.operations tx).length ≤ policy.maxOperations.getD 10
  operations : ∀ operation ∈ E.operations tx, operation.Conforms E policy.treasuryAccountPublicKey
  minFee     : 100 * (E.operations tx).length ≤ tx.fee
  maxFee     : tx.fee ≤ policy.maxFeeStroops.getD (200 * (E.operations tx).length)

-- The time within which an envelope may be submitted, by a clock that may be off by half a minute
def Open (tx : Transaction) (now : Time) : Prop :=
  ∃ bounds ∈ tx.timeBounds, 0 < bounds.maxTime ∧ nowSeconds now ≤ bounds.maxTime + 30 ∧
    bounds.minTime ≤ nowSeconds now + 30

variable {E : EnvelopeSdk} {tx : Transaction} {policy : TreasuryEnvelopePolicy} {now : Time}

theorem policyRejected_eq_ok {p : Prop} [Decidable p] {message : String} {x : Except Failure Unit} :
    (if p then policyRejected message else x) = .ok () ↔ ¬p ∧ x = .ok () := by
  by_cases h : p <;> simp [h, policyRejected]

theorem checkOperation_eq_ok {treasury : String} {operation : TreasuryOperation} {n : Nat} :
    checkOperation E treasury operation n = .ok () ↔ operation.Conforms E treasury := by
  have hs : (operation.source.any fun source => source ≠ "" ∧ source ≠ treasury) = true ↔
      ¬∀ source ∈ operation.source, source = "" ∨ source = treasury := by
    cases operation.source <;> simp
  have ht (type : String) (hn : type ≠ "") : operation.type.getD "" = type ↔ operation.type = some type := by
    cases operation.type <;> simp [hn.symm]
  have hp : operation.type.getD "" ∈ positiveAmountOperations ↔ operation.type = some "payment" := by
    rw [positiveAmountOperations, List.mem_singleton, ht _ (by decide)]
  have hd : operation.type.getD "" ∈ accountDestinationOperations ↔ operation.type = some "payment" ∨
      operation.type = some "createAccount" ∨ operation.type = some "accountMerge" := by
    simp only [accountDestinationOperations, List.mem_cons, List.not_mem_nil, or_false]
    rw [ht _ (by decide), ht _ (by decide), ht _ (by decide)]
  rw [checkOperation, policyRejected_eq_ok, policyRejected_eq_ok, policyRejected_eq_ok, hs, hp, hd, not_not,
    ← Bool.not_eq_true, Except.toBool_eq_true]
  constructor
  case mp =>
    rintro ⟨source, ha, hd, _⟩
    exact ⟨source, fun h => by_contra fun hn => ha ⟨h, hn⟩, fun h => by_contra fun hn => hd ⟨h, not_or.mp hn⟩⟩
  case mpr =>
    intro h
    exact ⟨h.source, fun ha => ha.2 (h.amount ha.1), fun hd => not_or.mpr hd.2 (h.destination hd.1), rfl⟩

theorem checkOperations_eq_ok {treasury : String} {l : List TreasuryOperation} {n : Nat} :
    ((l.zipIdx n).forM fun (operation, index) => checkOperation E treasury operation index) = .ok () ↔
    ∀ operation ∈ l, operation.Conforms E treasury := by
  induction l generalizing n with
  | nil         => simp [Except.pure_eq_ok]
  | cons hd tl hi =>
    rw [List.forall_mem_cons, ← checkOperation_eq_ok (n := n), ← hi (n := n + 1)]
    exact Except.unit_bind_eq_ok

theorem checkOperationCount_eq_ok {count maxOperations : Nat} :
    checkOperationCount count maxOperations = .ok () ↔ count ≠ 0 ∧ count ≤ maxOperations := by
  unfold checkOperationCount policyRejected
  split_ifs <;> simp <;> omega

theorem checkFee_eq_ok {fee minFee maxFee : Nat} :
    checkFee fee minFee maxFee = .ok () ↔ minFee ≤ fee ∧ fee ≤ maxFee := by
  unfold checkFee policyRejected
  split_ifs <;> simp <;> omega

theorem assertTimeBounds_eq_ok {resource : String} :
    assertTimeBoundsMatchIntent tx.timeBounds none resource now = .ok () ↔ Open tx now := by
  unfold assertTimeBoundsMatchIntent Open xdrMismatch
  cases tx.timeBounds with
  | none        => simp
  | some bounds =>
    by_cases hp : 0 < bounds.maxTime
    case neg => simp [hp, Option.filter]
    case pos =>
      have hc : clockSkewToleranceSeconds = 30 := rfl
      simp only [Option.filter_some, hp, decide_true, if_true, Option.any_none, Bool.false_eq_true, if_false, hc,
        Option.mem_def, Option.some.injEq, exists_eq_left', true_and]
      split_ifs <;> simp <;> omega

-- An envelope is accepted for a treasury exactly if it conforms to the policy and may still be submitted.
theorem envelope_policy_iff {r : TreasuryEnvelopeInspection} :
    assertTreasuryEnvelopePolicy E tx policy now = .ok r ↔
    (Conforms E tx policy ∧ Open tx now) ∧
      ⟨tx, (E.operations tx).map (·.type.getD "unknown"), tx.fee⟩ = r := by
  unfold assertTreasuryEnvelopePolicy
  by_cases hs : tx.source = policy.treasuryAccountPublicKey
  case neg =>
    rw [if_pos hs]
    exact ⟨fun h => by contradiction, fun h => absurd h.1.1.source hs⟩
  case pos =>
    rw [if_neg (not_not.mpr hs)]
    simp only [Except.unit_bind_eq_ok, Except.pure_eq_ok, checkOperations_eq_ok, checkOperationCount_eq_ok,
      checkFee_eq_ok, assertTimeBounds_eq_ok]
    constructor
    case mp =>
      intro ⟨⟨hn, hc⟩, ho, ⟨hl, hu⟩, ht, hr⟩
      exact ⟨⟨⟨hs, by simpa using hn, hc, ho, hl, hu⟩, ht⟩, hr⟩
    case mpr =>
      intro ⟨⟨h, ht⟩, hr⟩
      exact ⟨⟨by simpa using h.nonempty, h.count⟩, h.operations, ⟨h.minFee, h.maxFee⟩, ht, hr⟩

def Deps.Decodes (D : Deps) (tx : Transaction) : Prop :=
  ∃ xdr, D.sdk.fromXDR xdr = some (.transaction tx)

-- The hash of an envelope determines all of it but its signatures.
structure Deps.Hashes (D : Deps) (E : EnvelopeSdk) : Prop where
  content    : ∀ tx tx', D.Decodes tx → D.Decodes tx' → D.sdk.hash tx = D.sdk.hash tx' →
    tx' = { tx with signatures := tx'.signatures }
  operations : ∀ tx signatures, E.operations { tx with signatures } = E.operations tx

-- The policy of the collector
def Inspects (D : Deps) (E : EnvelopeSdk) : Prop :=
  ∀ tx account t, D.assertTreasuryEnvelopePolicy tx account t =
    (assertTreasuryEnvelopePolicy E tx { treasuryAccountPublicKey := account } t).map fun _ => ()

section

variable {D : Deps} {tx' : Transaction} {proposal : TreasuryTxProposal} {args : SubmitSignatureArgs} {log : TxLog}

theorem parseTreasuryXdr_eq_ok {xdr message : String} (h : parseTreasuryXdr D xdr message = .ok tx) :
    D.sdk.fromXDR xdr = some (.transaction tx) := by
  rw [parseTreasuryXdr] at h
  split at h
  case h_1      => contradiction
  case h_2      => contradiction
  case h_3 _ hx => exact Except.ok.inj h ▸ hx

theorem Conforms.of_content (h : Conforms E tx policy) (hs : tx'.source = tx.source) (hf : tx'.fee = tx.fee)
    (ho : E.operations tx' = E.operations tx) : Conforms E tx' policy where
  source     := hs.trans h.source
  nonempty   := ho ▸ h.nonempty
  count      := ho ▸ h.count
  operations := ho ▸ h.operations
  minFee     := by rw [ho, hf]; exact h.minFee
  maxFee     := by rw [ho, hf]; exact h.maxFee

theorem Deps.Hashes.conforms (hd : D.Hashes E) (hx : D.Decodes tx) (hx' : D.Decodes tx')
    (hh : D.sdk.hash tx = D.sdk.hash tx') (h : Conforms E tx policy) : Conforms E tx' policy := by
  have ht := hd.content tx tx' hx hx' hh
  exact h.of_content (by rw [ht]) (by rw [ht]) (ht ▸ hd.operations tx _)

theorem Deps.Hashes.opened (hd : D.Hashes E) (hx : D.Decodes tx) (hx' : D.Decodes tx')
    (hh : D.sdk.hash tx = D.sdk.hash tx') (h : Open tx now) : Open tx' now := by
  have hb : tx'.timeBounds = tx.timeBounds := by rw [hd.content tx tx' hx hx' hh]
  rw [Open, hb]
  exact h

-- The window of an envelope that conforms is all that is left to be checked.
theorem Conforms.policy_eq (h : Conforms E tx policy) : assertTreasuryEnvelopePolicy E tx policy now =
    (assertTimeBoundsMatchIntent tx.timeBounds none "treasury transaction" now).map fun _ =>
      ⟨tx, (E.operations tx).map (·.type.getD "unknown"), tx.fee⟩ := by
  have hc := checkOperationCount_eq_ok.mpr ⟨by simpa using h.nonempty, h.count⟩
  have hf := checkFee_eq_ok.mpr ⟨h.minFee, h.maxFee⟩
  rw [assertTreasuryEnvelopePolicy, if_neg (not_not.mpr h.source)]
  simp only [maxTreasuryOperations, minFeeStroopsPerOp, maxFeeStroopsPerOp, hc, hf,
    checkOperations_eq_ok.mpr h.operations]
  cases assertTimeBoundsMatchIntent tx.timeBounds none "treasury transaction" now <;> rfl

theorem nowSeconds_mono {t₁ t₂ : Time} (h : t₁ ≤ t₂) : nowSeconds t₁ ≤ nowSeconds t₂ := by
  rw [nowSeconds, nowSeconds, Int.fdiv_eq_ediv_of_nonneg _ (by decide), Int.fdiv_eq_ediv_of_nonneg _ (by decide)]
  exact Int.ediv_le_ediv (by decide) h

-- An envelope that could be submitted can still be, or has expired.
theorem Open.later {t₁ t₂ : Time} (h : Open tx t₁) (ht : t₁ ≤ t₂) :
    Open tx t₂ ∨ ∃ bounds ∈ tx.timeBounds, bounds.maxTime + 30 < nowSeconds t₂ ∧
      assertTimeBoundsMatchIntent tx.timeBounds none "treasury transaction" t₂ = .error (.badRequest "intent_expired"
        "This treasury transaction request has expired. Request a new transaction to sign and sign it promptly.") := by
  have ⟨bounds, hb, hp, _, hm⟩ := h
  have hn := nowSeconds_mono ht
  by_cases he : bounds.maxTime + 30 < nowSeconds t₂
  case neg => exact .inl ⟨bounds, hb, hp, not_lt.mp he, hm.trans (by omega)⟩
  case pos =>
    refine .inr ⟨bounds, hb, he, ?_⟩
    have he : bounds.maxTime + clockSkewToleranceSeconds < nowSeconds t₂ := he
    rw [Option.mem_def.mp hb, assertTimeBoundsMatchIntent, Option.filter_some, if_pos (decide_eq_true hp)]
    simp only [Option.any_none, Bool.false_eq_true, if_false, he, if_true]
    rfl

-- Whatever has been accepted as a proposal is later rejected only because it has expired.
theorem recheck_only_expires {xdr treasury hash : String} {t₁ t₂ : Time} (hd : D.Hashes E)
    (hc : checkProposed E D xdr treasury t₁ = .ok hash) (hx : D.Decodes tx) (hh : D.sdk.hash tx = hash) (ht : t₁ ≤ t₂) :
    assertTreasuryEnvelopePolicy E tx { treasuryAccountPublicKey := treasury } t₂ =
      .ok ⟨tx, (E.operations tx).map (·.type.getD "unknown"), tx.fee⟩ ∧ Open tx t₂ ∨
    assertTreasuryEnvelopePolicy E tx { treasuryAccountPublicKey := treasury } t₂ = .error (.badRequest "intent_expired"
      "This treasury transaction request has expired. Request a new transaction to sign and sign it promptly.") ∧
      ∃ bounds ∈ tx.timeBounds, bounds.maxTime + 30 < nowSeconds t₂ := by
  rw [checkProposed] at hc
  have ⟨tx₁, hp, hc⟩ := Except.bind_eq_ok.mp hc
  have hx₁ : D.Decodes tx₁ := ⟨xdr, parseTreasuryXdr_eq_ok hp⟩
  split at hc
  case isTrue => contradiction
  case isFalse =>
    have ⟨r, hr, hc⟩ := Except.bind_eq_ok.mp hc
    have ⟨⟨hc₁, ho₁⟩, _⟩ := envelope_policy_iff.mp hr
    have hh : D.sdk.hash tx₁ = D.sdk.hash tx := (Except.pure_eq_ok.mp hc).trans hh.symm
    have hc := hd.conforms hx₁ hx hh hc₁
    rcases (hd.opened hx₁ hx hh ho₁).later ht with ho | ⟨bounds, hb, he, hx⟩
    case inl => exact .inl ⟨envelope_policy_iff.mpr ⟨⟨hc, ho⟩, rfl⟩, ho⟩
    case inr =>
      refine .inr ⟨?_, bounds, hb, he⟩
      rw [hc.policy_eq, hx]
      rfl

-- A treasury pays one lumen to bob within the first five minutes.

def treasuryPayment : Transaction := { sampleTransaction with
  timeBounds := some ⟨0, 300⟩
  operations := [.payment none "GBOB" .native 10000000]
}

def fieldsOf : Operation → TreasuryOperation
  | .payment source destination _ amount =>
    { type := some "payment", source, amount := some (amountText amount), destination := some destination }
  | .other type source                   => { type := some type, source }

def paymentEnvelopeSdk : EnvelopeSdk := {
  operations               := fun tx => tx.operations.map fieldsOf
  isValidEd25519PublicKey  := (· = "GBOB")
  isValidMed25519PublicKey := fun _ => false
}

def inspectingDeps : Deps := { sampleDeps with
  sdk                          := { sampleSdk with fromXDR := fun _ => some (.transaction treasuryPayment) }
  assertTreasuryEnvelopePolicy := fun tx account t =>
    (assertTreasuryEnvelopePolicy paymentEnvelopeSdk tx { treasuryAccountPublicKey := account } t).map fun _ => ()
}

theorem inspectingDeps_hashes : inspectingDeps.Hashes paymentEnvelopeSdk where
  content    := by
    intro tx tx' ⟨_, hx⟩ ⟨_, hx'⟩ _
    cases hx
    cases hx'
    rfl
  operations := fun _ _ => rfl

theorem recheck_expired :
    assertTreasuryEnvelopePolicy paymentEnvelopeSdk treasuryPayment ⟨"treasury", none, none⟩ 331000 =
      .error (.badRequest "intent_expired"
        "This treasury transaction request has expired. Request a new transaction to sign and sign it promptly.") := by
  have hc : checkProposed paymentEnvelopeSdk inspectingDeps "" "treasury" 0 = .ok "hash" := by decide +kernel
  rcases recheck_only_expires inspectingDeps_hashes hc ⟨"", rfl⟩ rfl (by decide : (0 : Time) ≤ 331000) with h | h
  case inl =>
    have ⟨_, bounds, hb, _, hn, _⟩ := h
    cases hb
    exact absurd hn (by decide)
  case inr => exact h.1

def Action.Acts : Action → Prop
  | .createSignature _ | .updateTxProposal _ _ | .createAuditLog _ | .submitSigned _ => True
  | _                                                                               => False

-- A request has found a proposal, and its envelope to be the one of the proposal, and to conform to the policy.
structure Inspected (D : Deps) (E : EnvelopeSdk) (args : SubmitSignatureArgs) (log : TxLog)
    (proposal : TreasuryTxProposal) (tx : Transaction) (now : Time) : Prop where
  found    : readTxProposal log = some proposal
  clock    : ⟨.now, .ok now⟩ ∈ log
  envelope : D.sdk.fromXDR args.signedXdr = some (.transaction tx)
  hash     : D.sdk.hash tx = proposal.txHash
  conforms : Conforms E tx { treasuryAccountPublicKey := proposal.sourceAccount }
  opened   : Open tx now

theorem checkCollected_conforms {hash : String} (hi : Inspects D E)
    (h : checkCollected D proposal args.signedXdr now = .ok hash) :
    ∃ tx, D.sdk.fromXDR args.signedXdr = some (.transaction tx) ∧ D.sdk.hash tx = proposal.txHash ∧
      Conforms E tx { treasuryAccountPublicKey := proposal.sourceAccount } ∧ Open tx now := by
  have hh := checkCollected_ok h
  have ⟨tx, htx, h⟩ := Except.bind_eq_ok.mp h
  have ⟨_, h⟩ := Except.unit_bind_eq_ok.mp h
  have ⟨hp, h⟩ := Except.unit_bind_eq_ok.mp h
  rw [hi] at hp
  have ⟨r, hr, _⟩ := Except.map_eq_ok.mp hp
  have ⟨hc, _⟩ := envelope_policy_iff.mp hr
  exact ⟨tx, parseTreasuryXdr_eq_ok htx, (Except.pure_eq_ok.mp h).trans hh, hc.1, hc.2⟩

-- What a request writes comes after its checks.
theorem gatherSignatures_inspected {a : Action} {k : Except Failure a.Answer → Tx Gathered} (hi : Inspects D E)
    (ha : a.Acts) (h : (gatherSignatures D args).After log (.call a k)) :
    ∃ proposal tx now, Inspected D E args log proposal tx now := by
  obtain ⟨l₁, _, p, rfl, h₁, h⟩ := Prog.Avoids.bind_call (act_avoids (P := Action.Acts) id) ha h
  cases p with
  | none   => cases h.of_fail.2
  | some p =>
    obtain ⟨l₂, _, _, rfl, h₂, h⟩ := Prog.Avoids.bind_call (lift_avoids _) ha h
    obtain ⟨l₃, _, members, rfl, h₃, h⟩ := Prog.Avoids.bind_call (act_avoids (P := Action.Acts) id) ha h
    obtain ⟨l₄, _, account, rfl, h₄, h⟩ := Prog.Avoids.bind_call (act_avoids (P := Action.Acts) id) ha h
    obtain ⟨l₅, _, _, rfl, h₅, h⟩ := Prog.Avoids.bind_call (lift_avoids _) ha h
    obtain ⟨l₆, _, now, rfl, h₆, h⟩ := Prog.Avoids.bind_call (act_avoids (P := Action.Acts) id) ha h
    obtain ⟨l₇, _, hash, rfl, h₇, h⟩ := Prog.Avoids.bind_call (lift_avoids _) ha h
    have ⟨tx, hx, hh, hc, ho⟩ := checkCollected_conforms hi (lift_done h₇).2
    refine ⟨p, tx, now, ?_, ?_, hx, hh, hc, ho⟩
    case refine_1 =>
      rw [act_done h₁]
      rfl
    case refine_2 => simp [act_done h₆]

-- In every run, a request that is about to store a signature, to change a proposal, to leave an audit row or to submit
-- an envelope has found its own envelope to be the one of the proposal, and to conform to the policy. The same holds
-- of all envelopes of the proposal, such as the one that is submitted.
theorem acts_on_conforming {s : Store} {c : TxConfig SubmitSignatureArgs} {a : Action}
    {k : Except Failure (Database.Step.Answer (.act args log a)) → Prog (TxStep SubmitSignatureArgs) _ Failure Unit}
    (hd : D.Hashes E) (hi : Inspects D E) (r : (collectorSystem D).Run (fun _ _ => True) ⟨s, []⟩ c)
    (hp : .call (.act args log a) k ∈ c.procs) (ha : a.Acts) :
    ∃ proposal tx now, Inspected D E args log proposal tx now ∧
      ∀ base, D.Decodes base → D.sdk.hash base = proposal.txHash →
        Conforms E base { treasuryAccountPublicKey := proposal.sourceAccount } ∧ Open base now := by
  have hk : (database D).Keeps env (collectorRequest D) (fun _ _ => True) fun _ => True :=
    ⟨fun _ _ => trivial, fun _ _ _ _ _ => trivial⟩
  have ⟨_, h, _⟩ := ((Database.Reached.init trivial).run hk r).pending hp
  have ⟨_, h⟩ := h.discard_call
  suffices ∃ proposal tx now, Inspected D E args log proposal tx now by
    have ⟨proposal, tx, now, hx⟩ := this
    refine ⟨proposal, tx, now, hx, fun base hb hh => ?_⟩
    have hh := hx.hash.trans hh.symm
    have ht : D.Decodes tx := ⟨_, hx.envelope⟩
    exact ⟨hd.conforms ht hb hh hx.conforms, hd.opened ht hb hh hx.opened⟩
  rcases h.bind_call with ⟨_, h⟩ | ⟨l, ld, g, rfl, hg, _⟩
  case inl => exact gatherSignatures_inspected hi ha h
  case inr =>
    have ⟨_, now, _, _, _, _, hg⟩ := gatherSignatures_done hg
    have ⟨tx, hx, hh, hc, ho⟩ := checkCollected_conforms hi hg.checked
    refine ⟨g.proposal, tx, now, hg.readTxProposal_eq, ?_, hx, hh, hc, ho⟩
    simp [hg.log]

theorem acts_on_treasuryPayment : ∃ (args : SubmitSignatureArgs) (log : TxLog) (proposal : TreasuryTxProposal)
    (tx : Transaction) (t : Time), Inspected inspectingDeps paymentEnvelopeSdk args log proposal tx t := by
  have ⟨c, r, hc⟩ := System.exists_run_of_play (C := fun _ _ => True)
    (S := collectorSystem inspectingDeps) (c := ⟨collectorStore, []⟩)
    (p := fun c => c.procs.any fun p => (pendingSubmission p).isSome) (signedAlone sampleAccount) (by decide +kernel)
  have ⟨p, hp, hx⟩ := List.any_eq_true.mp hc
  have ⟨⟨log, xdr⟩, hx⟩ := Option.isSome_iff_exists.mp hx
  obtain ⟨args, k, rfl⟩ := pendingSubmission_eq hx
  have ⟨proposal, tx, t, h, _⟩ := acts_on_conforming inspectingDeps_hashes (fun _ _ _ => rfl) r hp trivial
  exact ⟨args, log, proposal, tx, t, h⟩

end

end Mergepay.Treasury
