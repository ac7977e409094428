import Mergepay.Treasury.Invariant

namespace Mergepay.Treasury

open Concurrency Stellar

section

variable {D : LifecycleDeps} {s s' : LifecycleStore} {i : LifecycleRequest} {log : LifecycleLog}

theorem extends_of_exec {a : LifecycleStep} {r : Except Failure a.Answer} (hd : Due D.toDeps a s)
    (h : (lifecycleDatabase D.toDeps).exec a x s = some (r, s')) : s.Extends s' := by
  cases a with
  | act i log a => exact (Database.exec_act h).1 ▸ .refl
  | commit i log =>
    rcases (Database.exec_commit h).2 with ⟨_, hs⟩ | ⟨_, _, hs, _⟩
    case inl => exact hs ▸ view_extends (Written.unmarked hd)
    case inr => exact hs ▸ .refl

theorem extends_of_env {e : LifecycleEvent} (h : lifecycleEnv e s = some s') : s.Extends s' := by
  cases e with
  | core e =>
    have ⟨t, ht, hs⟩ := Option.map_eq_some_iff.mp h
    have ⟨now, members, hn⟩ := env_eq_some ht
    subst hs hn
    exact ⟨fun _ p hp => ⟨p, hp, rfl⟩, fun _ hh => hh⟩
  | setGroups l =>
    cases h
    exact ⟨fun _ p hp => ⟨p, hp, rfl⟩, fun _ hh => hh⟩
  | apply hash =>
    cases h
    exact ⟨fun _ p hp => ⟨p, hp, rfl⟩, fun _ hh => .tail _ hh⟩

theorem extends_of_evolves (h : (lifecycleServer D).Evolves (lifecycleProtocol D).cond s s') :
    s.Extends s' := by
  induction h with
  | refl           => exact .refl
  | act _ hc hx hi => exact hi.trans (extends_of_exec hc.2 hx)
  | env _ hx hi    => exact hi.trans (extends_of_env hx)

theorem query_sound {a : LifecycleAction} (h : ¬a.Submits) : (lifecycleProtocol D).Sound (query i a) :=
  .perform fun _ _ => due_act h

-- A transaction that does not submit anything.
theorem transaction_sound {p : LifecycleTx α} (ha : p.Avoids LifecycleAction.Submits)
    (hw : ∀ log v s, p.After log (.done v) → Written D.toDeps s log (writtenTo log)) :
    (lifecycleProtocol D).Sound (p.transaction i []) := fun _ _ => Database.Transacts.safe {
  act  := fun h _ _ => due_act (ha _ _ _ h)
  due  := fun {log v s} h _ _ _ => hw log v s h
  done := fun _ _ _ _ _ _ _ _ => trivial
  fail := fun _ _ _ _ => trivial
  lost := fun _ _ _ => trivial
}

-- The parts of a transaction that are shared with the requests for signatures

theorem submits_core {a : Action} (h : LifecycleAction.Submits (.core a)) : a.Submits := by
  cases a <;> trivial

theorem embed_avoids {p : Tx α} (h : p.Avoids Action.Submits) :
    (embed p).Avoids LifecycleAction.Submits := by
  intro L a k ha hs
  obtain ⟨l, b, k', _, rfl, hb⟩ := embed_call ha
  exact h l b k' hb (submits_core hs)

theorem writtenTo_coreLog {l : TxLog} : writtenTo (coreLog l) =
    (l.performed.filterMap Action.proposal?).map fun u => .core (.updateProposal u.1 u.2) := by
  rw [writtenTo, coreLog_performed]
  induction l.performed with
  | nil          => rfl
  | cons a as hi =>
    cases a with
    | updateProposal id data => exact congrArg (_ :: ·) hi
    | _                      => exact hi

theorem embed_leaves {p : Tx α}
    (h : ∀ l v, p.After l (.done v) → l.performed.filterMap Action.proposal? = []) :
    (embed p).Leaves (·.writes) fun _ as => as = [] := by
  intro L v hd
  obtain ⟨l, rfl, hp⟩ := embed_done hd
  change writtenTo (coreLog l) = []
  rw [writtenTo_coreLog, h l v hp]
  rfl

theorem auditTx_leaves {params : AuditParams} :
    (embed (auditTx params)).Leaves (·.writes) fun _ as => as = [] :=
  embed_leaves fun l _ hd => by
    rw [auditTx_done hd]
    rfl

theorem auditTx_avoids_submits {params : AuditParams} :
    (embed (auditTx params)).Avoids LifecycleAction.Submits :=
  embed_avoids (act_avoids id)

theorem audit_sound {params : AuditParams} : (lifecycleProtocol D).Sound (audit i params) := by
  refine .swallow (transaction_sound auditTx_avoids_submits fun log v s hd => ?_)
  rw [writtenTo, auditTx_leaves log v hd]
  exact .nothing

-- The creation of a proposal

variable {params : CreateProposalParams} {account : String} {built : BuiltPayment} {threshold : Int}

theorem insertProposal_leaves (ht : 1 ≤ threshold) :
    (insertProposal params account built threshold).Leaves (·.writes) fun _ as =>
      ∃ row : TreasuryProposal, as = [.createProposal row] ∧ row.signatures = [] ∧
        row.status = initialStatus row.threshold ∧ 1 ≤ row.threshold := by
  refine .read_bind rfl fun id => .write_bind rfl fun created => ?_
  refine .bind auditTx_leaves fun _ as has => .done ?_
  exact ⟨_, by rw [has, List.nil_append], rfl, rfl, ht⟩

theorem insertProposal_avoids :
    (insertProposal params account built threshold).Avoids LifecycleAction.Submits :=
  .bind (.perform id) fun _ => .bind (.perform id) fun _ => .bind auditTx_avoids_submits fun _ => .done _

theorem insertProposal_sound (ht : 1 ≤ threshold) : (lifecycleProtocol D).Sound
    ((insertProposal params account built threshold).transaction i []) := by
  refine transaction_sound insertProposal_avoids fun log v s hd => ?_
  have ⟨row, hw, h₁, h₂, h₃⟩ := insertProposal_leaves ht log v hd
  rw [writtenTo, hw]
  exact .created h₁ h₂ h₃

theorem buildProposal_sound : (lifecycleProtocol D).Sound (buildProposal D i params account) := by
  refine .bind (query_sound id) fun snapshot => ?_
  simp only [Prog.bind_eq, Prog.throw_eq, Prog.fail_bind, Prog.pure_eq]
  split
  · exact .fail _
  refine .bind ?_ fun memoCode => .bind (query_sound id) fun xdr => .bind ?_ fun _ => .done _
  · unfold memoText
    split
    · exact .done _
    · exact .bind (query_sound id) fun _ => .done _
  · cases newTransaction D.toDeps xdr with
    | ok tx   => exact .done tx
    | error e => exact .fail e

theorem failBuild_sound {e : Failure} :
    (lifecycleProtocol D).Sound (failBuild i params e : LifecycleSession α) :=
  .bind audit_sound fun _ => .fail _

theorem create_sound (ht : 1 ≤ threshold) :
    (lifecycleProtocol D).Sound (create D i params threshold) := by
  refine .bind (query_sound id) fun treasury => ?_
  split
  case h_2 => exact .fail _
  case h_1 account _ =>
    refine .bind (.attempt buildProposal_sound) fun built => ?_
    split
    case h_1 => exact failBuild_sound
    case h_2 =>
      refine .bind (.attempt (insertProposal_sound ht)) fun created => ?_
      split
      · exact failBuild_sound
      · exact .done _

theorem proposePayment_sound : (lifecycleProtocol D).Sound (proposePayment D i params) := by
  refine .bind (query_sound id) fun group => ?_
  split
  case h_1 => exact .fail _
  case h_2 group =>
    simp only [Prog.bind_eq, Prog.throw_eq, Prog.fail_bind]
    split
    · exact .fail _
    · refine create_sound ?_
      cases group.treasuryRequiredSigners with
      | none   => exact Int.le_refl 1
      | some n => exact Int.ofNat_le.mpr n.2.1

-- The expiry of proposals

theorem expireOne_leaves {p : TreasuryProposal} :
    (expireOne p now).Leaves (·.writes) fun _ as => as = [] ∨ as = [.expire p.id] := by
  refine .attempt_bind rfl (fun _ => ?_) fun e => ?_
  · exact .bind auditTx_leaves fun _ as has => .done (.inr (by rw [has]; rfl))
  · simp only [Prog.pure_eq, Prog.throw_eq]
    split
    · exact .done (.inl rfl)
    · exact .fail

theorem expireOne_avoids {p : TreasuryProposal} :
    (expireOne p now).Avoids LifecycleAction.Submits := by
  refine .bind (.attempt (.perform id)) fun r => ?_
  split
  · simp only [Prog.pure_eq, Prog.throw_eq]
    split
    · exact .done _
    · exact .fail _
  · exact .bind auditTx_avoids_submits fun _ => .done _

theorem expireOne_sound {p : TreasuryProposal} :
    (lifecycleProtocol D).Sound ((expireOne p now).transaction i []) := by
  refine transaction_sound expireOne_avoids fun log v s hd => ?_
  have hn := expireOne_avoids.entries hd
  rcases expireOne_leaves log v hd with hw | hw
  case inl =>
    rw [writtenTo, hw]
    exact .nothing
  case inr =>
    rw [writtenTo, hw]
    exact .expired hn

theorem expireEach_sound {ps : List TreasuryProposal} :
    (lifecycleProtocol D).Sound (expireEach i now n ps) := by
  induction ps generalizing n with
  | nil          => exact .done n
  | cons p ps hi => exact .bind expireOne_sound fun _ => hi

theorem expireStaleProposals_sound : (lifecycleProtocol D).Sound (expireStaleProposals D i) :=
  .bind (query_sound id) fun _ => .bind (query_sound id) fun _ => .bind expireEach_sound fun _ => .done _

-- The worker finds nothing to submit, because all signatures have been used by the request that collected
-- the last one of them.

theorem processEach_eq {result : ProcessPendingMultisigResult} {ps : List TreasuryProposal}
    (h : ∀ p ∈ ps, (p.signatures.length : Int) < p.threshold) :
    processEach D i result ps = .done result := by
  induction ps with
  | nil          => rfl
  | cons p ps hi =>
    have ⟨hp, hps⟩ := List.forall_mem_cons.mp h
    rw [processEach, if_pos hp, hi hps]

theorem candidate_unmet (hs : s.Sound D.toDeps) (h : p ∈ oldestFirst s.candidates limit) :
    (p.signatures.length : Int) < p.threshold := by
  have h := (List.mem_insertionSort _).mp (List.mem_of_mem_take h)
  have ⟨hm, hc⟩ := List.mem_filter.mp h
  have ht := (hs.proposals p hm).stage
  simp only [List.mem_cons, List.not_mem_nil, or_false, decide_eq_true_eq] at hc
  rcases hc with hc | hc | hc <;> simp only [TreasuryProposal.Stage, hc] at ht
  · exact ht
  · exact ht

theorem answer_candidates (h : lifecycleAnswer D.toDeps (.findCandidates limit) x s = some (.ok ps)) :
    ps = oldestFirst s.candidates limit := by
  cases x with
  | text t => cases h
  | core x =>
    cases x with
    | plain => exact (Except.ok.inj (Option.some.inj h)).symm
    | _     => cases h

theorem processPendingTreasuryMultisig_sound :
    (lifecycleProtocol D).Sound (processPendingTreasuryMultisig D i) := by
  intro s hi
  refine .perform_bind hi (fun _ _ _ => trivial) fun ps s' _ _ ha => ?_
  have ⟨s₁, x, _, hi₁, _, hx, _⟩ := ha
  have hx : (lifecycleDatabase D.toDeps).exec (.act i [] (.findCandidates D.batchSize)) x s₁ = _ := hx
  have hps := answer_candidates (Database.exec_act hx).2.2
  rw [processEach_eq fun p hp => candidate_unmet hi₁ (hps ▸ hp)]
  exact .done _

-- Signing

variable {l rest : TxLog} {id : String} {p p' q : TreasuryProposal} {vs : List StoredSignature}
  {args : SubmitSignaturesArgs} {xdr : String}

theorem answer_proposal (h : lifecycleAnswer D.toDeps (.core (.findProposal id)) x s = some (.ok (some p))) :
    s.proposal id = some p := by
  cases x with
  | text t => cases h
  | core x =>
    cases x with
    | plain => exact Except.ok.inj (Option.some.inj h)
    | _     => cases h

theorem answer_accepted {hash : String}
    (h : lifecycleAnswer D.toDeps (.core (.submitSigned xdr)) x s = some (.ok hash)) :
    s.applied D.toDeps xdr = true := by
  cases x with
  | text t => cases h
  | core x =>
    cases x with
    | accepted hash =>
      simp only [lifecycleAnswer, Option.ite_none_right_eq_some] at h
      exact h.1
    | _ => cases h

theorem view_update {data : ProposalData} (h : l.performed.filterMap Action.proposal? = [(id, data)]) :
    ((lifecycleDatabase D.toDeps).view (coreLog l) s).proposal id =
      (s.proposal id).map (·.set data) := by
  rw [view_coreLog, Store.proposal, view_proposals, h]
  have hu := Table.row?_update (k := fun q : TreasuryProposal => q.id) (p := (·.id = id))
    (f := fun q => q.set data) (l := s.proposals) (fun _ => rfl) id
  refine hu.trans <| Option.map_congr fun q hq => if_pos ?_
  simpa using Table.key_of_row? hq

-- The proposal that a request reads in the beginning.
theorem read_once (ht : Database.Traced (lifecycleProtocol D) i s₀ s (coreLog l))
    (hl : l = ⟨.findProposal id, .ok (some p)⟩ :: rest) :
    p.id = id ∧ (StoredSignature.keys p.signatures).Nodup ∧ (∀ t ∈ p.signatures, t.Valid D.toDeps p.txHash) ∧
      ∃ q, s.proposal id = some q ∧ q.intent = p.intent := by
  have ⟨x, s₁, hb, _, _, ha⟩ := ht [] ⟨.core (.findProposal id), .ok (some p)⟩ (coreLog rest)
    (by rw [hl]; rfl)
  have hp := answer_proposal ha
  have hs := hb.inv.proposals p (Table.mem_of_row? hp)
  exact ⟨Table.key_of_row? hp, hs.once, hs.valid, (extends_of_evolves hb.after).intent id p hp⟩

-- The envelope that is submitted belongs to the proposal that has been read in the beginning.
theorem Submission.authorizes {collected recorded : TxLog} (hD : D.sdk.RoundTrips)
    (h : Submission D.toDeps args p p' vs xdr collected recorded l)
    (hn : (StoredSignature.keys p.signatures).Nodup) (hv : ∀ t ∈ p.signatures, t.Valid D.toDeps p.txHash)
    (hp' : p'.intent = p.intent) (hq : q.intent = p.intent) (hs : q.signatures = vs) :
    q.Authorizes D.toDeps xdr := by
  obtain ⟨hxdr, _⟩ := TreasuryProposal.of_intent hp'
  obtain ⟨_, htx, hth⟩ := TreasuryProposal.of_intent hq
  obtain ⟨tx, ht, hx⟩ := h.merged
  obtain ⟨tx', ht', hh⟩ := hD.parsed tx (mergedSignatures D.toDeps tx vs (D.sdk.decorated p'.xdr))
  have hhash : D.sdk.hash tx = p.txHash := by
    have he := h.hash
    rw [envelopeHash, ← hxdr, ht] at he
    exact Option.some.inj he
  obtain ⟨hnv, hvv⟩ := h.valid hn hv
  refine ⟨?_, StoredSignature.keys vs, hnv, ?_, fun k hk => ⟨hs ▸ hk, ?_⟩⟩
  · rw [envelopeHash, newTransaction, hx, ht', htx, ← hhash, ← hh]
    rfl
  · rw [hth, StoredSignature.keys, List.length_map]
    exact h.enough
  · obtain ⟨t, hm, hk⟩ := List.mem_map.mp hk
    obtain ⟨d, hd, hds⟩ : ∃ d ∈ mergedSignatures D.toDeps tx vs (D.sdk.decorated p'.xdr),
        d.signature = t.signature := mem_mergedSignatures (hhash.symm ▸ hvv) hm
    refine ⟨d, ?_, ?_⟩
    · rw [hx, hD.decorated]
      exact hd
    · rw [htx, hds, ← hk]
      exact (hvv t hm).verified

-- The proposal that a request reads once more.
theorem read_twice {collected recorded : TxLog}
    (ht : Database.Traced (lifecycleProtocol D) i s₀ s (coreLog l))
    (h : Submission D.toDeps args p p' vs xdr collected recorded l) :
    p'.id = p.id ∧ ∃ q, s.proposal p.id = some q ∧ q.intent = p'.intent := by
  have ⟨x, s₂, hb, _, _, ha⟩ := ht (coreLog (Submission.before args p vs collected recorded))
    ⟨.core (.findProposal p.id), .ok (some p')⟩ [] (by rw [h.log_eq, coreLog_append]; rfl)
  have hp := answer_proposal ha
  have hid : p'.id = p.id := Table.key_of_row? hp
  rw [view_update h.updates_before] at hp
  have ⟨q, hq, hqp⟩ := Option.map_eq_some_iff.mp hp
  have ⟨q', hq', hi⟩ := (extends_of_evolves hb.after).intent p.id q hq
  exact ⟨hid, q', hq', hi.trans (hqp ▸ rfl)⟩

theorem sign_sanctioned {k : Except Failure String → Tx ProposalResult} (hD : D.sdk.RoundTrips)
    (h : (submitSignatures D.toDeps args).After l (.call (.submitSigned xdr) k))
    (ht : Database.Traced (lifecycleProtocol D) i s₀ s (coreLog l)) :
    ∃ p p', Sanctioned D.toDeps args (coreLog l) s xdr p p' := by
  have ⟨p, p', vs, collected, recorded, hS⟩ := submitSignatures_call h
  have ⟨hid, hn, hv, q, hq, hqi⟩ := read_once ht hS.log
  have ⟨_, q', hq', hqi'⟩ := read_twice ht hS
  rw [hid, hq] at hq'
  cases hq'
  have hview : ((lifecycleDatabase D.toDeps).view (coreLog l) s).proposal args.proposalId =
      some (q.set { signatures := some vs, status := some .submitted }) := by
    rw [← hid, view_update hS.updates, hid, hq]
    rfl
  refine ⟨p, _, ?_, hid, hview, hqi, hS.authorizes hD hn hv (hqi'.symm.trans hqi) hqi rfl⟩
  rw [hS.log]
  rfl

theorem recorded {collected : TxLog} (ht : Database.Traced (lifecycleProtocol D) i s₀ s (coreLog l))
    (hl : l = ⟨.findProposal args.proposalId, .ok (some p)⟩ :: rest)
    (hc : Collection D.toDeps args p vs collected) : Recorded D.toDeps s (coreLog l) p vs := by
  have ⟨hid, hn, hv, q, hq, hqi⟩ := read_once ht hl
  refine ⟨by rw [hl]; rfl, ⟨_, hc.checked⟩, fun q' hq' => ?_, (hc.valid hn hv).1, (hc.valid hn hv).2⟩
  rw [hid, hq] at hq'
  cases hq'
  exact hqi

-- What Horizon has accepted has been applied.
theorem accepted_applied {hash : String} (hr : readFirst (coreLog l) = some p)
    (ht : Database.Traced (lifecycleProtocol D) i s₀ s
      (coreLog (l ++ ⟨.submitSigned xdr, .ok hash⟩ :: rest))) : p.txHash ∈ s.ledger := by
  have ⟨x, s₃, hb, hc, _, ha⟩ := ht (coreLog l) ⟨.core (.submitSigned xdr), .ok hash⟩ (coreLog rest)
    (by rw [coreLog_append]; rfl)
  obtain ⟨args', p₀, p₁, _, hA⟩ : Due D.toDeps (.act i (coreLog l) (.core (.submitSigned xdr))) s₃ := hc.2
  cases hr.symm.trans hA.read
  have happ := answer_accepted ha
  rw [LifecycleStore.applied, hA.authorizes.hash, (TreasuryProposal.of_intent hA.intent).2.1] at happ
  have hm := of_decide_eq_true ((Option.any_some ..).symm.trans happ)
  rw [view_change.2] at hm
  exact (extends_of_evolves hb.after).ledger _ hm

theorem sign_written {r : ProposalResult} (h : (submitSignatures D.toDeps args).After l (.done r))
    (ht : Database.Traced (lifecycleProtocol D) i s₀ s (coreLog l)) :
    Written D.toDeps s (coreLog l) (writtenTo (coreLog l)) := by
  obtain ⟨p, vs, collected, ho⟩ := submitSignatures_outcome h
  rw [writtenTo_coreLog]
  cases ho with
  | @awaiting rest hc hlt hrest =>
    have hl : (Log.performed collected).filterMap Action.proposal? = [] :=
      nothing_written fun e he => (hc.entries e he).1
    have hr : (Log.performed rest).filterMap Action.proposal? = [] :=
      nothing_written fun e he => (hrest e he).1
    simp only [Log.performed_append, Log.performed_cons_ok, List.filterMap_append, List.filterMap_cons,
      Action.proposal?, hl, hr, List.nil_append, List.map_cons, List.map_nil]
    refine .awaiting (recorded ht rfl hc) hlt fun e he hs => ?_
    obtain ⟨e', he', hee⟩ := List.mem_map.mp he
    subst hee
    have hs := submits_core hs
    rcases List.mem_append.mp he' with he' | he'
    case inl =>
      cases he' with
      | head      => exact hs
      | tail _ he' => exact (hc.entries e' he').2 hs
    case inr =>
      cases he' with
      | head      => exact hs
      | tail _ he' => exact (hrest e' he').2 hs
  | @confirmed recorded' log row p' xdr hash hS =>
    have ht' : Database.Traced (lifecycleProtocol D) i s₀ s (coreLog log) := by
      rw [coreLog_append] at ht
      exact ht.left
    obtain ⟨hid, _⟩ := read_twice ht' hS
    rw [hid] at ht ⊢
    have hrec := recorded ht' hS.log hS.toCollection
    have hrec' := recorded ht (congrArg (· ++ _) hS.log) hS.toCollection
    have happ := accepted_applied hrec.read ht
    rw [Log.performed_append, List.filterMap_append, hS.updates]
    exact .confirmed hrec' happ

theorem sign_transacts (hD : D.sdk.RoundTrips) : Database.Transacts (lifecycleProtocol D) (.sign args)
    (embed (submitSignatures D.toDeps args)) (fun _ _ => True) (fun _ _ => True) s where
  act  := fun {log a k s'} h ht _ => by
    obtain ⟨l, b, k', rfl, rfl, hb⟩ := embed_call h
    cases b with
    | submitSigned xdr =>
      have ⟨p, p', hA⟩ := sign_sanctioned hD hb ht
      exact ⟨args, p, p', rfl, hA⟩
    | _ => trivial
  due  := fun {log v s'} h ht _ _ => by
    obtain ⟨l, rfl, hd⟩ := embed_done h
    exact sign_written hd ht
  done := fun _ _ _ _ _ _ _ _ => trivial
  fail := fun _ _ _ _ => trivial
  lost := fun _ _ _ => trivial

theorem lifecycleRequest_sound (hD : D.sdk.RoundTrips) (i : LifecycleRequest) :
    (lifecycleProtocol D).Sound (lifecycleRequest D i) := by
  cases i with
  | create params => exact .bind proposePayment_sound fun _ => .done ()
  | sign args     => exact .bind (fun _ _ => (sign_transacts hD).safe) fun _ => .done ()
  | cleanup       => exact .bind expireStaleProposals_sound fun _ => .done ()
  | process       => exact .bind processPendingTreasuryMultisig_sound fun _ => .done ()

theorem holds_run {c₁ c₂ : LifecycleConfig} (hD : D.sdk.RoundTrips) (h : (lifecycleProtocol D).Holds c₁)
    (r : (lifecycleServer D).Run C c₁ c₂) : (lifecycleProtocol D).Holds c₂ :=
  h.run_due (fun _ _ _ hd => ⟨trivial, hd⟩) (lifecycleRequest_sound hD) r

theorem lifecycle_holds {c : LifecycleConfig} (hD : D.sdk.RoundTrips)
    (r : (lifecycleServer D).Run C ⟨{}, []⟩ c) : (lifecycleProtocol D).Holds c :=
  have hi : (lifecycleProtocol D).Holds ⟨{}, []⟩ := .init ⟨List.nodup_nil, by simp⟩
  holds_run hD hi r

end

-- Envelopes that consist of nothing but their signatures

def encodeSignature (d : DecoratedSignature) : List Char :=
  d.hint.toList.flatMap (['h', ·]) ++ d.signature.toList.flatMap (['s', ·]) ++ ['z']

-- The characters of the current signature are collected in reverse order.
def decodeSignatures (hint signature : List Char) : List Char → List DecoratedSignature
  | 'h' :: c :: tl => decodeSignatures (c :: hint) signature tl
  | 's' :: c :: tl => decodeSignatures hint (c :: signature) tl
  | 'z' :: tl      => ⟨.ofList hint.reverse, .ofList signature.reverse⟩ :: decodeSignatures [] [] tl
  | _              => []

theorem decode_hint {hint signature cs tl : List Char} :
    decodeSignatures hint signature (cs.flatMap (['h', ·]) ++ tl) =
      decodeSignatures (cs.reverse ++ hint) signature tl := by
  induction cs generalizing hint with
  | nil          => rfl
  | cons c cs hi => simpa [decodeSignatures] using @hi (c :: hint)

theorem decode_signature {hint signature cs tl : List Char} :
    decodeSignatures hint signature (cs.flatMap (['s', ·]) ++ tl) =
      decodeSignatures hint (cs.reverse ++ signature) tl := by
  induction cs generalizing signature with
  | nil          => rfl
  | cons c cs hi => simpa [decodeSignatures] using @hi (c :: signature)

theorem decode_encode {l : List DecoratedSignature} :
    decodeSignatures [] [] (l.flatMap encodeSignature) = l := by
  induction l with
  | nil         => rfl
  | cons d l hi =>
    simp only [List.flatMap_cons, encodeSignature, List.append_assoc, decode_hint, decode_signature]
    simp [decodeSignatures, hi]

def codecSdk : Sdk := { sampleSdk with
  decorated := fun xdr => decodeSignatures [] [] xdr.toList
  toXDR     := fun _ signatures => .ofList (signatures.flatMap encodeSignature)
}

theorem codecSdk_roundTrips : codecSdk.RoundTrips where
  parsed _ _               := ⟨sampleTransaction, rfl, rfl⟩
  decorated tx signatures := by
    change decodeSignatures [] [] (String.ofList (signatures.flatMap encodeSignature)).toList = signatures
    rw [String.toList_ofList, decode_encode]

def sampleLifecycleDeps : LifecycleDeps := { sampleDeps with
  sdk                := codecSdk
  expiryDays         := 7
  batchSize          := 50
  maxAttempts        := 3
  safeFailureMessage := Failure.message
}

-- A group whose members are Alice and Bob

def sampleGroup (requiredSigners : Nat) (h : 1 ≤ requiredSigners ∧ requiredSigners ≤ 20) :
    TreasuryGroup := {
  id                       := "group"
  treasuryEnabled          := true
  treasuryAccountPublicKey := some "treasury"
  treasuryRequiredSigners  := some ⟨requiredSigners, h⟩
}

def fundedAccount : AccountSnapshot := {
  exists_    := true
  signers    := []
  thresholds := ⟨0, 0, 0⟩
}

def samplePayment : CreateProposalParams := {
  groupId          := "group"
  creatorId        := "alice"
  creatorPublicKey := "alice"
  destination      := "shop"
  amount           := "10"
  assetCode        := "XLM"
  memo             := some "MP:RENT"
}

def envelopeSignedBy (keys : List String) : String :=
  codecSdk.toXDR sampleTransaction (keys.map fun k => ⟨k, k⟩)

def sampleSigning (keys : List String) : SubmitSignaturesArgs := {
  proposalId       := "proposal"
  groupId          := "group"
  memberPublicKeys := ["alice", "bob"]
  signedXdr        := envelopeSignedBy keys
  userId           := "alice"
}

abbrev LifecycleLabel :=
  Label LifecycleChoice LifecycleEvent LifecycleRequest

-- The process with number 0 creates a proposal.
def proposing (g : TreasuryGroup) : List LifecycleLabel :=
  .env (.setGroups [g]) :: .env (.core (.setMembers sampleMembers)) :: .spawn (.create samplePayment) ::
    Label.acts 0 [.core .plain, .core .plain, .core (.account fundedAccount), .text "", .text "proposal",
      .core .plain, .core .plain, .core .plain]

def signingWith (n m : Nat) (keys : List String) : List LifecycleLabel :=
  .spawn (.sign (sampleSigning keys)) :: Label.acts n (List.replicate m (.core .plain))

section Submissions

variable {D : LifecycleDeps} {c : LifecycleConfig} {i : LifecycleRequest} {log : LifecycleLog} {xdr : String}

-- Whatever has happened before, an envelope is only submitted by a request that signs a proposal, and the
-- envelope is authorized by that proposal. In particular, the worker never submits an unsigned one.
theorem submissions_signed {p : Prog LifecycleStep Database.Step.Answer Failure Unit}
    (hD : D.sdk.RoundTrips) (r : (lifecycleServer D).Run (fun _ _ => True) ⟨{}, []⟩ c) (hp : p ∈ c.procs)
    (hx : p.head = some (.act i log (.core (.submitSigned xdr)))) :
    ∃ args q, i = .sign args ∧
      ((lifecycleDatabase D.toDeps).view log c.shared).proposal args.proposalId = some q ∧
      q.Authorizes D.toDeps xdr := by
  obtain ⟨k, rfl⟩ := Prog.of_head hx
  have hc := lifecycle_holds hD r
  have ⟨hd, _⟩ := (hc.safe _ hp).call hc.inv
  obtain ⟨args, p, q, hi, hs⟩ : Due D.toDeps (.act i log (.core (.submitSigned xdr))) c.shared := hd
  exact ⟨args, q, hi, hs.current, hs.authorizes⟩

-- A process that submits the envelope that both signers have signed.
def submitsSigned (p : Prog LifecycleStep Database.Step.Answer Failure Unit) : Bool :=
  match p.head with
  | some (.act (.sign args) _ (.core (.submitSigned xdr))) =>
    args.proposalId = "proposal" ∧ xdr = envelopeSignedBy ["alice", "bob"]
  | _ => False

theorem submissions_signed_sample : ∃ (s : LifecycleStore) (log : LifecycleLog) (q : TreasuryProposal),
    ((lifecycleDatabase sampleLifecycleDeps.toDeps).view log s).proposal "proposal" = some q ∧
    q.Authorizes sampleLifecycleDeps.toDeps (envelopeSignedBy ["alice", "bob"]) := by
  obtain ⟨c, r, hc⟩ := System.exists_run_of_play (C := fun _ _ => True)
    (S := lifecycleServer sampleLifecycleDeps) (c := ⟨{}, []⟩)
    (p := fun c => c.procs.any submitsSigned)
    (proposing (sampleGroup 2 (by decide)) ++ signingWith 1 9 ["alice", "bob"]) (by decide +kernel)
  obtain ⟨p, hp, hx⟩ := List.any_eq_true.mp hc
  unfold submitsSigned at hx
  split at hx
  case h_2 => simp at hx
  case h_1 args log xdr hh =>
    obtain ⟨hid, rfl⟩ := of_decide_eq_true hx
    obtain ⟨args', q, hi, hq, ha⟩ := submissions_signed codecSdk_roundTrips r hp hh
    cases hi
    exact ⟨c.shared, log, q, hid ▸ hq, ha⟩

end Submissions

end Mergepay.Treasury
