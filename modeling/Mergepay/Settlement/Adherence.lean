import Mergepay.Data.Except
import Mergepay.Settlement.Protocol

namespace Mergepay

open Concurrency Money Protocol

variable {D : Deps} {C : Act → World → Prop} {w : World}

-- Most actions are always due.
theorem sound_act (h : ∀ w, D.Due C a w) : (D.protocol C).Sound (act a) :=
  .perform fun w _ => h w

theorem safe_lift {x : Except Failure α} {Q : α → World → Prop} (h : ∀ a w, x = .ok a → Q a w) :
    (D.protocol C).Safe (lift x) Q (fun _ _ => True) w := by
  cases x
  case ok    => exact .done fun _ _ _ => h _ _ rfl
  case error => exact .fail fun _ _ _ => trivial

theorem sound_lift (x : Except Failure α) : (D.protocol C).Sound (lift x) :=
  fun _ _ => safe_lift fun _ _ _ => trivial

-- The state machine

theorem Deps.Knows.later (h : D.Knows C caller i w) (he : D.system.Evolves C w w') :
    D.Knows C caller i w' where
  outcome k b hk  := (h.outcome k b hk).later he
  recorded k hk   := (h.recorded k hk).later he

theorem knows_confirmRoute
    (hr : D.Past C (fun w => ∃ s, w.settlement i = some s ∧ s.stellarTxHash = some k) w)
    (ho : D.Past C (fun w => (w.transaction k).map (·.successful) = some b) w) :
    D.Knows C (.confirmRoute k b) i w where
  outcome _ _ h := by
    have ⟨hk, hb⟩ := Prod.mk.inj <| Option.some.inj h
    exact hk ▸ hb ▸ ho
  recorded _ h := Option.some.inj h ▸ hr

theorem knows_reconciliation
    (hr : D.Past C (fun w => ∃ s, w.settlement i = some s ∧ s.stellarTxHash = some k) w)
    (ho : ∀ b, (Caller.reconciliation k r).outcome D = some (k, b) →
      D.Past C (fun w => (w.transaction k).map (·.successful) = some b) w) :
    D.Knows C (.reconciliation k r) i w where
  outcome k' b h := by
    have hk : k = k' := by
      cases r <;> simp only [Caller.outcome, Option.some.injEq, Prod.mk.injEq, reduceCtorEq] at h
      all_goals exact h.1
    exact hk ▸ ho b (hk ▸ h)
  recorded _ h := Option.some.inj h ▸ hr

theorem knows_job
    (ho : ∀ k b, (Caller.job xdr r).outcome D = some (k, b) →
      D.Past C (fun w => (w.transaction k).map (·.successful) = some b) w) :
    D.Knows C (.job xdr r) i w where
  outcome      := ho
  recorded _ h := nomatch h

theorem Deps.Grounds.later (h : D.Grounds C caller i d w) (he : D.system.Evolves C w w') :
    D.Grounds C caller i d w' := by
  cases caller with
  | job xdr reason =>
    cases reason with
    | windowExpired =>
      have ⟨t, hr, ht⟩ := h
      exact ⟨t, hr.later he, ht.later he⟩
    | _ => exact h
  | reconciliation k reason =>
    cases reason with
    | pendingLimit since =>
      have ⟨t, hs, ht⟩ := h
      exact ⟨t, hs, ht.later he⟩
    | _ => exact h
  | confirmRoute => exact h

structure Deps.DueParams (D : Deps) (C : Act → World → Prop) (p : TransitionParams) (w : World) :
    Prop where
  next    : p.nextStatus = p.caller.nextStatus
  sets    : ∀ data, p.extraData = some data → p.caller.Sets D data
  knows   : D.Knows C p.caller p.settlementId w
  grounds : D.Grounds C p.caller p.settlementId (p.extraData.getD {}) w
  settles : p.nextStatus = .confirmed → p.settleExpenseShare = true

theorem applySettlementTransition_fine {p : TransitionParams} (hw : w.WellFormed)
    (h : D.DueParams C p w) : (D.protocol C).Fine (applySettlementTransition p) w := by
  have ⟨hn, hs, hk, hg, hb⟩ := h
  unfold applySettlementTransition
  refine Fine.perform_bind hw (fun _ _ _ => trivial) fun s w₁ he hw₁ ha => ?_
  cases s
  case none => exact .fail _
  case some s =>
    simp only [Prog.bind_eq, Prog.throw_eq, Prog.fail_bind, Prog.pure_eq]
    split
    case isTrue => exact .fail _
    case isFalse =>
      split
      case isTrue =>
        split
        case h_2 => exact .done _
        case h_1 data hd =>
          exact Fine.perform_bind hw₁ (fun _ _ _ => hs data hd) fun _ _ _ _ _ => .done _
      case isFalse =>
        split
        case isTrue => exact .fail _
        case isFalse =>
          refine Fine.perform_bind hw₁ (fun _ _ _ => trivial) fun now w₂ he₂ hw₂ _ => ?_
          refine Fine.perform_bind hw₂ (fun w₃ he₃ _ => ?_) fun _ _ _ _ _ => .done _
          have he' := he.trans <| he₂.trans he₃
          refine ⟨hn, ?_, hk.later he', hg.later he', fun i hi => ?_, fun hc => ?_⟩
          case refine_1 =>
            cases hx : p.extraData
            case none   => exact ⟨rfl, rfl, by simp⟩
            case some d => exact hs d hx
          case refine_2 =>
            have ⟨hc, hi⟩ := Option.ite_none_right_eq_some.mp hi
            refine ⟨hc.2, System.Past.later ?_ (he₂.trans he₃)⟩
            exact (answered_read ha fun _ _ => rfl).mono fun _ _ h => ⟨s, h, hi⟩
          case refine_3 =>
            refine System.Past.later ?_ (he₂.trans he₃)
            exact (answered_read ha fun _ _ => rfl).mono fun _ _ h => ⟨s, h, (if_pos ⟨hb hc, hc⟩).symm⟩

-- Requests

theorem requireMembership_sound : (D.protocol C).Sound (requireMembership g u) := by
  refine .bind (sound_act fun _ => trivial) fun m => ?_
  cases m
  case some => exact .done _
  case none =>
    refine .bind (sound_act fun _ => trivial) fun g => ?_
    cases g
    case none => exact .fail _
    case some =>
      dsimp only
      split <;> exact .fail _

theorem requireActiveMembership_sound : (D.protocol C).Sound (requireActiveMembership g u) := by
  refine .bind requireMembership_sound fun m => .bind (sound_act fun _ => trivial) fun g => ?_
  dsimp only
  split
  case isTrue  => exact .fail _
  case isFalse => exact .done _

theorem runIdempotent_fine (hw : w.WellFormed) (h : (D.protocol C).Fine op w) :
    (D.protocol C).Fine (runIdempotent scope key op) w := by
  cases key
  case none => exact h
  case some key =>
    refine Fine.perform_bind hw (fun _ _ _ => trivial) fun b w' he _ _ => ?_
    cases b
    case false => exact .done _
    case true  => exact h.stable he

def Deps.ValidAsset (D : Deps) (assetCode : String) (assetIssuer : Option String) : Prop :=
  ∃ a, D.validateAsset assetCode assetIssuer = .ok (.ok a)

theorem refineStellarAsset_safe (hw : w.WellFormed) :
    (D.protocol C).Safe (refineStellarAsset D c i) (fun _ _ => D.ValidAsset c i) (fun _ _ => True) w := by
  unfold refineStellarAsset
  simp only [Prog.bind_eq]
  refine Safe.bind hw <| safe_lift fun r w' hr => ?_
  cases r
  case ok a    => exact .done fun _ _ _ => ⟨a, hr⟩
  case error e => exact .fail fun _ _ _ => trivial

theorem buildSettlementXdr_safe (hw : w.WellFormed) :
    (D.protocol C).Safe (buildSettlementXdr D k c i amount) (fun _ _ => D.ValidAsset c i)
      (fun _ _ => True) w := by
  unfold buildSettlementXdr
  simp only [Prog.bind_eq]
  refine Safe.bind hw <| (refineStellarAsset_safe hw).mono ?_ (fun _ _ _ _ _ => trivial)
  intro _ w₁ _ hw₁ hv
  refine Safe.bind hw₁ <| .attempt <| .perform (fun _ _ _ => trivial) ?_ ?_
  case refine_2 => exact fun _ _ _ _ => .fail fun _ _ _ => trivial
  case refine_1 =>
    intro account w₂ _ _ _
    dsimp only
    split
    case h_1 => exact .done fun _ _ _ => hv
    case h_2 => exact .fail fun _ _ _ => trivial

theorem createExpense_sound : (D.protocol C).Sound (createExpense D u g p c i shares) := by
  have hm : ∀ v, (D.protocol C).Sound (act (.findMembership g v)) := fun _ => sound_act fun _ => trivial
  have hg : (D.protocol C).Sound (requireActiveMembership g u) := requireActiveMembership_sound
  have hc : ∀ e, (D.protocol C).Sound (act (.createExpense e shares)) := fun _ => sound_act fun _ => trivial
  unfold createExpense
  simp only [Prog.bind_eq, Prog.throw_eq, Prog.fail_bind, Prog.pure_eq]
  refine hg.bind fun _ => .bind (sound_lift _) fun _ => ?_
  split
  case isFalse =>
    refine (Sound.forEach fun share => .bind (hm _) fun m => ?_).bind fun _ => hg.bind fun _ => hc _
    split
    case isTrue  => exact .fail _
    case isFalse => exact .done _
  case isTrue =>
    refine .bind (hm _) fun m => ?_
    split
    case isTrue => exact .fail _
    case isFalse =>
      refine (Sound.forEach fun share => .bind (hm _) fun m => ?_).bind fun _ => hg.bind fun _ => hc _
      split
      case isTrue  => exact .fail _
      case isFalse => exact .done _

theorem deleteExpense_sound : (D.protocol C).Sound (deleteExpense u e) := by
  unfold deleteExpense
  refine .bind (sound_act fun _ => trivial) fun e => ?_
  cases e
  case none => exact .fail _
  case some e =>
    refine .bind requireActiveMembership_sound fun m => ?_
    simp only [Prog.bind_eq, Prog.throw_eq, Prog.fail_bind]
    split
    case isTrue => exact .fail _
    case isFalse =>
      split
      case isTrue  => exact .fail _
      case isFalse => exact sound_act fun _ => trivial

theorem id_of_expenseWithShares (h : w.expenseWithShares i = some e) : e.id = i := by
  have ⟨e', he, h⟩ := Option.map_eq_some_iff.mp h
  rw [← h]
  exact Table.key_of_row? he

theorem validate_sound {body : SettleExpenseBody} : (D.protocol C).Sound (body.validate D) := by
  unfold SettleExpenseBody.validate
  split
  case h_1 =>
    split
    case isTrue  => exact .fail _
    case isFalse => exact .done _
  case h_2 => exact fun w hw => (refineStellarAsset_safe hw).fine

theorem settleExpense_sound : (D.protocol C).Sound (settleExpense D u i body key) := by
  unfold settleExpense
  simp only [Prog.bind_eq, Prog.throw_eq, Prog.fail_bind, Prog.pure_eq]
  refine validate_sound.bind fun _ w hw => ?_
  refine Fine.perform_bind hw (fun _ _ _ => trivial) fun e w₁ _ hw₁ ha => ?_
  cases e
  case none => exact .fail _
  case some e =>
    have hr : D.Past C (·.expenseWithShares e.id = some e) w₁ :=
      (answered_read ha fun _ _ => rfl).mono fun _ _ h => id_of_expenseWithShares h ▸ h
    dsimp only
    refine Fine.bind hw₁ (requireActiveMembership_sound _ hw₁) fun _ w₂ he₂ hw₂ _ => ?_
    refine Fine.perform_bind hw₂ (fun _ _ _ => trivial) fun m w₃ he₃ hw₃ _ => ?_
    split
    case isTrue => exact .fail _
    case isFalse =>
      split
      case h_2 => exact .fail _
      case h_1 share hs =>
        have hu : share.userId = u := by simpa using List.find?_some hs
        split
        case isTrue => exact .fail _
        case isFalse =>
          split
          case isTrue => exact .fail _
          case isFalse hp =>
            split
            case h_1 => exact .fail _
            case h_2 =>
              refine runIdempotent_fine hw₃ ?_
              refine Fine.perform_bind hw₃ (fun _ _ _ => trivial) fun fresh w₄ he₄ hw₄ _ => ?_
              split
              case isTrue => exact .fail _
              case isFalse =>
                cases key
                case' none   => refine Fine.bind hw₄ (Fine.done none) ?_
                case' some k =>
                  have hd : ∀ w, D.Due C (.findDuplicate share.id k) w := fun _ => trivial
                  refine Fine.bind hw₄ (sound_act hd _ hw₄) ?_
                all_goals
                  intro existing w₅ he₅ hw₅ _
                  split
                  case isFalse => exact .done _
                  refine Fine.perform_bind hw₅ (fun _ _ _ => trivial) fun code w₆ he₆ hw₆ _ => ?_
                  refine Fine.perform_bind hw₆ (fun _ _ _ => trivial) fun now w₇ he₇ hw₇ _ => ?_
                  refine Fine.perform_bind hw₇ (fun _ _ _ => trivial) fun k w₈ he₈ hw₈ _ => ?_
                  refine Fine.bind hw₈ (buildSettlementXdr_safe hw₈) fun _ w₉ he₉ hw₉ hv => ?_
                  refine .perform (fun w' he' _ => ?_) (fun _ _ _ _ _ => trivial) (fun _ _ _ _ => trivial)
                  have he := he₂.trans <| he₃.trans <| he₄.trans <| he₅.trans <| he₆.trans <|
                    he₇.trans <| he₈.trans <| he₉.trans he'
                  refine ⟨e, share, ⟨rfl, rfl, rfl⟩, hv, hr.later he, List.mem_of_find?_eq_some hs, rfl,
                    rfl, rfl, rfl, fun ho => ?_, hu.symm, rfl, Ne.symm hp⟩
                  cases hb : body.assetCode
                  case some => simp [hb] at ho
                  case none => simp [SettleExpenseBody.asset, hb]

theorem limit_of_verifySettlementLimit (h : verifySettlementLimit i j t reads = .ok ())
    (ht : toStroops t = .ok n) : ∃ debt, limitDebt i j reads = .ok debt ∧ n ≤ debt := by
  unfold verifySettlementLimit at h
  have ⟨debt, hd, h⟩ := Except.bind_eq_ok.mp h
  refine ⟨debt, hd, ?_⟩
  have ⟨m, hm, h⟩ := Except.bind_eq_ok.mp h
  have hn : n = m := Except.ok.inj <| ht.symm.trans hm
  split at h
  case isTrue  => contradiction
  case isFalse => omega

theorem settleGroup_sound : (D.protocol C).Sound (settleGroup D u g body key) := by
  intro w hw
  unfold settleGroup
  simp only [Prog.bind_eq, Prog.throw_eq, Prog.pure_eq]
  split
  case h_2 => exact .fail _
  case h_1 amount hv =>
    have ⟨hp, ht⟩ := toStroops_of_validateAmount hv
    simp only [Prog.done_bind]
    refine Fine.bind hw (refineStellarAsset_safe hw).fine fun _ w₁ he₁ hw₁ _ => ?_
    refine Fine.bind hw₁ (requireActiveMembership_sound _ hw₁) fun _ w₂ he₂ hw₂ _ => ?_
    split
    case isTrue => exact .fail _
    case isFalse hu =>
      refine Fine.perform_bind hw₂ (fun _ _ _ => trivial) fun m w₃ he₃ hw₃ _ => ?_
      split
      case isTrue => exact .fail _
      case isFalse =>
        refine runIdempotent_fine hw₃ ?_
        refine Fine.perform_bind hw₃ (fun _ _ _ => trivial) fun expenses w₄ he₄ hw₄ he => ?_
        refine Fine.perform_bind hw₄ (fun _ _ _ => trivial) fun settlements w₅ he₅ hw₅ hs => ?_
        refine Fine.bind hw₅ (safe_lift fun _ _ hl => limit_of_verifySettlementLimit hl ht) ?_
        intro _ w₆ he₆ hw₆ hl
        refine Fine.perform_bind hw₆ (fun _ _ _ => trivial) fun code w₇ he₇ hw₇ _ => ?_
        refine Fine.perform_bind hw₇ (fun _ _ _ => trivial) fun now w₈ he₈ hw₈ _ => ?_
        refine Fine.perform_bind hw₈ (fun _ _ _ => trivial) fun k w₉ he₉ hw₉ _ => ?_
        refine Fine.bind hw₉ (buildSettlementXdr_safe hw₉).fine fun _ w₁₀ he₁₀ _ _ => ?_
        refine .perform (fun w' he' _ => ?_) (fun _ _ _ _ _ => trivial) (fun _ _ _ _ => trivial)
        have hl' := he₆.trans <| he₇.trans <| he₈.trans <| he₉.trans <| he₁₀.trans he'
        exact ⟨⟨rfl, rfl, rfl⟩, rfl, Ne.symm hu, Int.natCast_pos.mpr hp,
          (answered_read he fun _ _ => rfl).later (he₅.trans hl'),
          (answered_read hs fun _ _ => rfl).later hl', hl⟩

theorem validateSettlementXdr_sound : (D.protocol C).Sound (validateSettlementXdr D xdr s) :=
  .bind (sound_act fun _ => trivial) fun _ => .bind (sound_act fun _ => trivial) fun _ =>
    .bind (sound_act fun _ => trivial) fun _ => sound_lift _

-- What is known about a settlement that was read at some point.
def Deps.Seen (D : Deps) (C : Act → World → Prop) (s : Settlement) (w : World) : Prop :=
  D.Past C (·.settlement s.id = some s) w

theorem seen_of_findSettlement
    (h : D.system.Answered C World.WellFormed (.findSettlement i) (some s) w) : D.Seen C s w :=
  (answered_read h fun _ _ => rfl).mono fun _ _ h => (Table.key_of_row? h : s.id = i) ▸ h

theorem mem_of_run {q : Query} (h : s ∈ q.run n l) : s ∈ l := by
  have hr : s ∈ (l.filter q.selects).insertionSort (q.before · ·) := by
    unfold Query.run at h
    split at h
    · exact h
    · exact List.mem_of_mem_take h
  exact List.mem_of_mem_filter <| (List.perm_insertionSort _ _).mem_iff.mp hr

theorem seen_of_findSettlements
    (h : D.system.Answered C World.WellFormed (.findSettlements q) l w) : ∀ s ∈ l, D.Seen C s w :=
  fun _ hs => (answered_read h fun _ _ => rfl).mono fun _ hw h =>
    hw.settlement_of_mem <| mem_of_run <| h ▸ hs

theorem checkInFlight_fine (hw : w.WellFormed) (hs : D.Seen C s w) :
    (D.protocol C).Fine (checkInFlight s) w := by
  unfold checkInFlight
  split
  case h_1 => exact .done _
  case h_2 hash hh =>
    have hr : D.Past C (fun w => ∃ s', w.settlement s.id = some s' ∧ s'.stellarTxHash = some hash) w :=
      hs.mono fun _ _ h => ⟨s, h, hh⟩
    refine Fine.swallow hw <| Fine.perform_bind hw (fun _ _ _ => trivial) fun o w₁ he₁ hw₁ ha => ?_
    split
    case h_1 => exact .done _
    case h_2 | h_3 =>
      have hk := knows_confirmRoute (hr.later he₁) (answered_getTransaction ha)
      refine Fine.bind hw₁ (applySettlementTransition_fine hw₁ ⟨rfl, ?_, hk, trivial, by simp⟩)
        fun _ _ _ _ _ => .done _
      rintro _ ⟨⟩
      exact ⟨rfl, rfl, by simp⟩

theorem confirm_sound : (D.protocol C).Sound (confirm D u i xdr key) := by
  intro w hw
  unfold confirm
  simp only [Prog.bind_eq, Prog.throw_eq, Prog.fail_bind]
  refine Fine.perform_bind hw (fun _ _ _ => trivial) fun row w₁ _ hw₁ _ => ?_
  cases row
  case none => exact .fail _
  case some row =>
    refine Fine.bind hw₁ (requireActiveMembership_sound _ hw₁) fun _ w₂ _ hw₂ _ => ?_
    split
    case isTrue => exact .fail _
    case isFalse =>
      refine Fine.bind hw₂ (validateSettlementXdr_sound _ hw₂) fun _ w₃ _ hw₃ _ => ?_
      refine runIdempotent_fine hw₃ ?_
      refine Fine.perform_bind hw₃ (fun _ _ _ => trivial) fun s w₄ _ hw₄ ha => ?_
      cases s
      case none => exact .fail _
      case some s =>
        dsimp only
        split
        case isTrue => exact .fail _
        case isFalse =>
          split
          case isTrue => exact checkInFlight_fine hw₄ (seen_of_findSettlement ha)
          case isFalse =>
            refine Fine.perform_bind hw₄ (fun _ _ _ => trivial) fun now w₅ _ hw₅ _ => ?_
            exact Fine.perform_bind hw₅ (fun _ _ _ => trivial) fun _ _ _ _ _ => .done _

theorem execute_sound : (D.protocol C).Sound (execute D u i xdr key) := by
  intro w hw
  unfold execute
  simp only [Prog.bind_eq, Prog.throw_eq, Prog.fail_bind, Prog.pure_eq]
  refine runIdempotent_fine hw ?_
  refine Fine.perform_bind hw (fun _ _ _ => trivial) fun row w₁ _ hw₁ _ => ?_
  cases row
  case none => exact .fail _
  case some row =>
    refine Fine.bind hw₁ (requireActiveMembership_sound _ hw₁) fun _ w₂ _ hw₂ _ => ?_
    split
    case isTrue => exact .fail _
    case isFalse =>
      refine Fine.bind hw₂ (validateSettlementXdr_sound _ hw₂) fun _ w₃ _ hw₃ _ => ?_
      refine Fine.perform_bind hw₃ (fun _ _ _ => trivial) fun s w₄ _ hw₄ _ => ?_
      cases s
      case none => exact .fail _
      case some s =>
        dsimp only
        split
        case isFalse => exact .done _
        case isTrue =>
          refine Fine.perform_bind hw₄ (fun _ _ _ => trivial) fun now w₅ _ hw₅ _ => ?_
          exact Fine.perform_bind hw₅ (fun _ _ _ => trivial) fun _ _ _ _ _ => .done _

-- The submission worker

section Worker

variable {job : Job}

theorem claimSettlement_sound : (D.protocol C).Sound (claimSettlement D n job) :=
  .bind (sound_act fun _ => trivial) fun _ => .bind (sound_act fun _ => trivial) fun _ => .done _

theorem releaseSettlement_sound : (D.protocol C).Sound (releaseSettlement n i) :=
  .swallow <| sound_act fun _ => trivial

theorem recordAttemptStarted_sound : (D.protocol C).Sound (recordAttemptStarted D job n) :=
  .bind (sound_act fun _ => trivial) fun _ => .bind (sound_act fun _ => trivial) fun _ => .done _

theorem scheduleRetry_sound : (D.protocol C).Sound (scheduleRetry D job n c r t) :=
  .bind (sound_act fun _ => trivial) fun _ => .bind (sound_act fun _ => trivial) fun _ => .done _

theorem failSettlement_fine (hw : w.WellFormed)
    (hn : (Caller.job job.transactionXdr why).nextStatus = .failed)
    (hk : D.Knows C (.job job.transactionXdr why) job.id w)
    (hg : ∀ d, d.retryCount = some n → D.Grounds C (.job job.transactionXdr why) job.id d w) :
    (D.protocol C).Fine (failSettlement job n c r f why) w := by
  refine Fine.perform_bind hw (fun _ _ _ => trivial) fun now w₁ he hw₁ _ => ?_
  refine Fine.bind hw₁ (applySettlementTransition_fine hw₁
    ⟨hn.symm, ?_, hk.later he, (hg _ rfl).later he, nofun⟩) fun _ _ _ _ _ => .done _
  rintro _ ⟨⟩
  exact ⟨rfl, rfl, by simp⟩

-- Most reasons to fail a settlement do not refer to the ledger.
theorem failSettlement_grounded (hw : w.WellFormed) (hn : ∀ xdr, (Caller.job xdr why).nextStatus = .failed)
    (ho : ∀ xdr, (Caller.job (some xdr) why).outcome D = none)
    (hg : ∀ d, d.retryCount = some n → D.Grounds C (.job job.transactionXdr why) job.id d w) :
    (D.protocol C).Fine (failSettlement job n c r f why) w := by
  refine failSettlement_fine hw (hn _) (knows_job fun _ _ h => ?_) hg
  cases hx : job.transactionXdr
  case none     => simp [hx, Caller.outcome] at h
  case some xdr => simp [hx, ho] at h

theorem transitionSettlement_fine (hw : w.WellFormed)
    (hn : next = (Caller.job job.transactionXdr why).nextStatus)
    (hs : ∀ d, data = some d → (Caller.job job.transactionXdr why).Sets D d)
    (hb : next = .confirmed → b = true)
    (hk : D.Knows C (.job job.transactionXdr why) job.id w)
    (hg : D.Grounds C (.job job.transactionXdr why) job.id (data.getD {}) w) :
    (D.protocol C).Fine (transitionSettlement job next data b why) w :=
  Fine.bind hw (applySettlementTransition_fine hw ⟨hn, hs, hk, hg, hb⟩) fun _ _ _ _ _ => .done _

theorem alreadyApplied_safe (hw : w.WellFormed) :
    (D.protocol C).Safe (alreadyApplied D job)
      (fun o w => ∀ k b, o = some (k, b) → ∃ xdr, job.transactionXdr = some xdr ∧ k = D.hashOf xdr ∧
        D.Past C (fun w => (w.transaction k).map (·.successful) = some b) w)
      (fun _ _ => True) w := by
  unfold alreadyApplied
  split
  case h_1 => exact .done fun _ _ _ _ _ h => by simp at h
  case h_2 xdr hx =>
    refine Safe.bind hw <| .attempt <| .perform (fun _ _ _ => trivial) ?_ ?_
    case refine_2 => exact fun _ _ _ _ => .done fun _ _ _ _ _ h => by simp at h
    case refine_1 =>
      intro o w₁ _ _ ha
      split
      case h_2 => exact .done fun _ _ _ _ _ h => by simp at h
      case h_1 b ho =>
        refine .done fun w₂ he _ k b' h => ?_
        have ⟨hk, hb⟩ := Prod.mk.inj <| Option.some.inj h
        subst hk hb
        exact ⟨xdr, hx, rfl, (answered_getTransaction <| Except.ok.inj ho ▸ ha).later he⟩

theorem pollForConfirmation_safe (hw : w.WellFormed) (n : Nat) :
    (D.protocol C).Safe (pollForConfirmation k n)
      (fun c w =>
        (c = .confirmed → D.Past C (fun w => (w.transaction k).map (·.successful) = some true) w) ∧
        (c = .failed → D.Past C (fun w => (w.transaction k).map (·.successful) = some false) w))
      (fun _ _ => True) w := by
  induction n generalizing w
  case zero => exact .done fun _ _ _ => by simp
  case succ n hi =>
    unfold pollForConfirmation
    refine Safe.bind hw <| .attempt <| .perform (fun _ _ _ => trivial) ?_ ?_
    case refine_1 =>
      intro o w₁ _ hw₁ ha
      split
      case h_1 ho =>
        have ha := Except.ok.inj ho ▸ ha
        exact .done fun _ he _ => ⟨fun _ => (answered_getTransaction ha).later he, by simp⟩
      case h_2 ho =>
        have ha := Except.ok.inj ho ▸ ha
        exact .done fun _ he _ => ⟨by simp, fun _ => (answered_getTransaction ha).later he⟩
      case h_3 =>
        split
        case isTrue  => exact .done fun _ _ _ => by simp
        case isFalse => exact hi hw₁
      case h_4 ho => contradiction
    case refine_2 =>
      intro e w₁ _ hw₁
      dsimp only
      split
      case isTrue  => exact .done fun _ _ _ => by simp
      case isFalse => exact hi hw₁

theorem confirmSubmission_fine (hw : w.WellFormed) (hx : job.transactionXdr = some xdr) :
    (D.protocol C).Fine (confirmSubmission D job (D.hashOf xdr) n) w := by
  unfold confirmSubmission
  refine Fine.bind hw (transitionSettlement_fine hw ?_ ?_ nofun ?_ trivial) fun _ w₁ _ hw₁ _ => ?_
  · rfl
  · rintro _ ⟨⟩
    exact ⟨rfl, rfl, fun _ h => ⟨xdr, _, congrArg (Caller.job · _) hx, rfl, (Option.some.inj h).symm⟩⟩
  · exact knows_job fun _ _ h => by simp [hx, Caller.outcome] at h
  refine Fine.bind hw₁ (pollForConfirmation_safe hw₁ _) fun c w₂ _ hw₂ hc => ?_
  cases c
  case confirmed =>
    refine transitionSettlement_fine hw₂ rfl ?_ (fun _ => rfl) (knows_job fun k b h => ?_) trivial
    · rintro _ ⟨⟩
      exact ⟨rfl, rfl, fun _ h => ⟨xdr, _, congrArg (Caller.job · _) hx, rfl, (Option.some.inj h).symm⟩⟩
    · simp only [hx, Caller.outcome, Option.some.injEq, Prod.mk.injEq] at h
      exact h.1 ▸ h.2 ▸ hc.1 rfl
  case failed =>
    refine failSettlement_fine hw₂ rfl (knows_job fun k b h => ?_) fun _ _ => trivial
    simp only [hx, Caller.outcome, Option.some.injEq, Prod.mk.injEq] at h
    exact h.1 ▸ h.2 ▸ hc.2 rfl
  case notFound | timeout =>
    refine transitionSettlement_fine hw₂ rfl ?_ nofun (knows_job fun k b h => ?_) trivial
    · rintro _ ⟨⟩
      exact ⟨rfl, rfl, fun _ h => ⟨xdr, _, congrArg (Caller.job · _) hx, rfl, (Option.some.inj h).symm⟩⟩
    · simp [hx, Caller.outcome] at h

theorem submitPayment_safe (hw : w.WellFormed) :
    (D.protocol C).Safe (submitPayment D job xdr) (fun k _ => k = D.hashOf xdr) (fun _ _ => True) w := by
  refine Safe.bind hw <| (validateSettlementXdr_sound w hw).mono ?_ (fun _ _ _ _ _ => trivial)
  intro _ w₁ _ hw₁ _
  exact .perform (fun _ _ _ => trivial) (fun _ _ _ _ ha => answered_submit ha) (fun _ _ _ _ => trivial)

theorem giveUpOrRetry_sound (hc : category = .permanent → classifyJobFailure e = .permanent) :
    (D.protocol C).Sound (handleFailure.giveUpOrRetry D job n e reason f category) := by
  intro w hw
  unfold handleFailure.giveUpOrRetry
  split
  case isTrue hp =>
    refine Fine.bind hw (failSettlement_grounded hw (fun _ => rfl) (fun _ => rfl) ?_) fun _ _ _ _ _ => .done _
    exact fun _ _ => hc hp
  case isFalse =>
    split
    case isTrue hn =>
      refine Fine.bind hw (failSettlement_grounded hw (fun _ => rfl) (fun _ => rfl) ?_) fun _ _ _ _ _ => .done _
      exact fun _ hd => ⟨n, hd, hn⟩
    case isFalse =>
      have hr : (D.protocol C).Sound (act (.retryDelay n)) := sound_act fun _ => trivial
      exact hr.bind (fun _ => scheduleRetry_sound.bind fun _ => .done _) w hw

theorem handleFailure_sound : (D.protocol C).Sound (handleFailure D job n e) := by
  intro w hw
  unfold handleFailure
  simp only [Prog.bind_eq, Prog.pure_eq]
  split
  case isFalse => exact giveUpOrRetry_sound id w hw
  case isTrue =>
    refine Fine.bind hw (alreadyApplied_safe hw) fun o w₁ _ hw₁ ho => ?_
    split
    case h_3 =>
      have hc : JobFailureCategory.transient = .permanent → classifyJobFailure e = .permanent := nofun
      exact giveUpOrRetry_sound hc w₁ hw₁
    case h_1 k =>
      have ⟨xdr, hx, hk, hl⟩ := ho k true rfl
      refine Fine.bind hw₁ (transitionSettlement_fine hw₁ rfl ?_ (fun _ => rfl) ?_ trivial) fun _ _ _ _ _ => .done _
      · rintro _ ⟨⟩
        refine ⟨rfl, rfl, fun _ h => ⟨xdr, _, congrArg (Caller.job · _) hx, rfl, ?_⟩⟩
        exact hk ▸ (Option.some.inj h).symm
      · refine knows_job fun k' b h => ?_
        simp only [hx, Caller.outcome, Option.some.injEq, Prod.mk.injEq] at h
        exact h.1 ▸ h.2 ▸ hk ▸ hl
    case h_2 k =>
      have ⟨xdr, hx, hk, hl⟩ := ho k false rfl
      refine Fine.bind hw₁ (failSettlement_fine hw₁ rfl ?_ fun _ _ => trivial) fun _ _ _ _ _ => .done _
      refine knows_job fun k' b h => ?_
      simp only [hx, Caller.outcome, Option.some.injEq, Prod.mk.injEq] at h
      exact h.1 ▸ h.2 ▸ hk ▸ hl

theorem attempts_sound (hx : job.transactionXdr = some xdr) (m : Nat) :
    (D.protocol C).Sound (attempts D job xdr n m) := by
  induction m generalizing n
  case zero => exact .done _
  case succ m hi =>
    unfold attempts
    refine recordAttemptStarted_sound.bind fun _ => .bind (.attempt fun w hw => ?_) fun o => ?_
    · refine Fine.bind hw (submitPayment_safe hw) fun k w₁ _ hw₁ hk => ?_
      exact hk ▸ confirmSubmission_fine hw₁ hx
    · cases o
      case ok => exact .done _
      case error e =>
        refine handleFailure_sound.bind fun b => ?_
        split
        case isTrue  => exact hi
        case isFalse => exact .done _

theorem checkSettlementPreflight_sound : (D.protocol C).Sound (checkSettlementPreflight job) := by
  refine .bind (sound_act fun _ => trivial) fun k => .bind (.attempt <| sound_act fun _ => trivial) ?_
  intro o
  cases o <;> exact .done _

theorem processSettlementJob_fine (hw : w.WellFormed) (hs : D.Seen C job w) :
    (D.protocol C).Fine (processSettlementJob D job) w := by
  unfold processSettlementJob
  simp only [Prog.bind_eq, Prog.pure_eq]
  split
  case isTrue hn =>
    refine Fine.bind hw (failSettlement_grounded hw (fun _ => rfl) (fun _ => rfl) ?_) fun _ _ _ _ _ => .done _
    exact fun _ hd => ⟨_, hd, hn⟩
  case isFalse =>
    split
    case h_2 hx =>
      refine failSettlement_grounded hw (fun _ => rfl) (fun _ => rfl) fun _ _ => ?_
      exact Option.eq_none_iff_forall_ne_some.mpr hx
    case h_1 xdr hx =>
      have ha := attempts_sound (D := D) (C := C) (n := job.retryCount) hx
        (D.settlementMaxAttempts - job.retryCount)
      have hp : (D.protocol C).Sound (transitionSettlement job .verifying none false .pickedUp) := fun w hw =>
        transitionSettlement_fine hw rfl (by simp) nofun (knows_job fun _ _ h => by simp [hx, Caller.outcome] at h)
          trivial
      have hc : (D.protocol C).Sound (if job.status = .submitted
          then Prog.bind (transitionSettlement job .verifying none false .pickedUp) fun _ =>
            attempts D job xdr job.retryCount (D.settlementMaxAttempts - job.retryCount)
          else attempts D job xdr job.retryCount (D.settlementMaxAttempts - job.retryCount)) := by
        split
        case isTrue  => exact hp.bind fun _ => ha
        case isFalse => exact ha
      refine Fine.perform_bind hw (fun _ _ _ => trivial) fun now w₁ he₁ hw₁ hnow => ?_
      split
      case isTrue hi =>
        refine Fine.bind hw₁ (failSettlement_grounded hw₁ (fun _ => rfl) (fun _ => rfl) ?_) fun _ _ _ _ _ => .done _
        refine fun _ _ => ⟨job.expiresAt, (hs.later he₁).mono fun _ _ h => ⟨job, h, rfl⟩, ?_⟩
        exact (answered_read hnow fun _ _ => rfl).mono fun _ _ h => h ▸ hi
      case isFalse =>
        refine Fine.bind hw₁ (checkSettlementPreflight_sound w₁ hw₁) fun o w₂ _ hw₂ _ => ?_
        split
        case h_1 r =>
          split
          case isTrue hr =>
            refine Fine.bind hw₂ (failSettlement_grounded hw₂ (fun _ => rfl) (fun _ => rfl) ?_)
              fun _ _ _ _ _ => .done _
            exact fun _ _ => hr
          case isFalse => exact hc w₂ hw₂
        case h_2 => exact hc w₂ hw₂

theorem processSubmittedSettlements_sound : (D.protocol C).Sound (processSubmittedSettlements D n) := by
  intro w hw
  unfold processSubmittedSettlements
  refine Fine.perform_bind hw (fun _ _ _ => trivial) fun now w₁ _ hw₁ _ => ?_
  refine Fine.perform_bind hw₁ (fun _ _ _ => trivial) fun rows w₂ _ hw₂ ha => ?_
  refine Fine.forEach hw₂ (seen_of_findSettlements ha) (fun _ _ _ => .later) fun job w₃ hw₃ hs => ?_
  refine Fine.bind hw₃ (claimSettlement_sound w₃ hw₃) fun b w₄ he hw₄ _ => ?_
  split
  case isFalse => exact .done _
  case isTrue =>
    refine Fine.bind hw₄ (Fine.swallow hw₄ <| processSettlementJob_fine hw₄ <| hs.later he) ?_
    exact fun _ w₅ _ hw₅ _ => releaseSettlement_sound w₅ hw₅

theorem recoverStaleSettlements_sound : (D.protocol C).Sound recoverStaleSettlements :=
  .bind (sound_act fun _ => trivial) fun _ => .bind (sound_act fun _ => trivial) fun _ => .done _

end Worker

-- Reconciliation

section Reconciliation

theorem verifyTransactionMemo_sound : (D.protocol C).Sound (verifyTransactionMemo k m) := by
  unfold verifyTransactionMemo
  simp only [Prog.bind_eq, Prog.throw_eq, Prog.fail_bind, Prog.pure_eq]
  split
  case h_1 => exact .fail _
  case h_2 =>
    refine .bind (sound_act fun _ => trivial) fun tx => ?_
    split
    case h_1 => exact .fail _
    case h_2 =>
      split
      case isTrue => exact .fail _
      case isFalse =>
        split
        case h_1 => exact .fail _
        case h_2 => exact .done _

theorem validateMemoAgainstActiveExpense_sound :
    (D.protocol C).Sound (validateMemoAgainstActiveExpense m c i) := by
  unfold validateMemoAgainstActiveExpense
  simp only [Prog.bind_eq, Prog.pure_eq]
  split
  case h_1 => exact .done _
  case h_2 =>
    split
    case isTrue => exact .done _
    case isFalse =>
      refine .bind (sound_act fun _ => trivial) fun e => ?_
      split
      case h_1 => exact .done _
      case h_2 =>
        refine .bind (sound_act fun _ => trivial) fun n => ?_
        split <;> exact .done _

theorem verifyPayment_sound : (D.protocol C).Sound (verifyPayment s k) := by
  unfold verifyPayment
  simp only [Prog.bind_eq, Prog.throw_eq, Prog.fail_bind]
  split
  case h_1 => exact .fail _
  case h_2 =>
    refine verifyTransactionMemo_sound.bind fun memo => ?_
    split
    case' h_1 =>
      refine validateMemoAgainstActiveExpense_sound.bind fun o => ?_
      split
      case h_1 => exact .fail _
    -- The operation is checked whether or not the settlement has an expense.
    all_goals
      refine .bind (sound_act fun _ => trivial) fun payments => ?_
      split
      case h_1 => exact .bind (sound_act fun _ => trivial) fun _ => sound_lift _
      case h_2 => exact .fail _

variable {s : Settlement}

theorem Deps.Seen.recorded (h : D.Seen C s w) (hk : s.stellarTxHash = some k) :
    D.Past C (fun w => ∃ s', w.settlement s.id = some s' ∧ s'.stellarTxHash = some k) w :=
  h.mono fun _ _ h => ⟨s, h, hk⟩

-- A transition on behalf of reconciliation only sets columns that have no bearing on the ledger.
theorem reconcile_fine {p : TransitionParams} {d : Patch} (hw : w.WellFormed) (hs : D.Seen C s w)
    (hk : s.stellarTxHash = some k) (hi : p.settlementId = s.id) (hd : p.extraData = some d)
    (hc : p.caller = .reconciliation k r) (hn : p.nextStatus = (Caller.reconciliation k r).nextStatus)
    (ho : ∀ b, (Caller.reconciliation k r).outcome D = some (k, b) →
      D.Past C (fun w => (w.transaction k).map (·.successful) = some b) w)
    (hp : d.status = none ∧ d.transactionXdr = none ∧ d.stellarTxHash = none)
    (hg : D.Grounds C (.reconciliation k r) s.id d w) (hb : p.nextStatus = .confirmed → p.settleExpenseShare = true) :
    (D.protocol C).Fine ((applySettlementTransition p).bind fun _ => Prog.done a) w := by
  refine Fine.bind hw (applySettlementTransition_fine hw ⟨hc ▸ hn, fun d' h => ?_, ?_, ?_, hb⟩)
    fun _ _ _ _ _ => .done _
  · have h := Option.some.inj <| hd.symm.trans h
    exact h ▸ ⟨hp.1, hp.2.1, by simp [hp.2.2]⟩
  · exact hc ▸ hi ▸ knows_reconciliation (hs.recorded hk) ho
  · rwa [hc, hi, hd]

theorem handleTransactionNotFound_fine (hw : w.WellFormed) (hs : D.Seen C s w)
    (hk : s.stellarTxHash = some k) :
    (D.protocol C).Fine (handleTransactionNotFound D s t k) w := by
  unfold handleTransactionNotFound
  refine Fine.perform_bind hw (fun _ _ _ => trivial) fun now w₁ he hw₁ hnow => ?_
  split
  case isTrue ht =>
    have ⟨since, hs', ht⟩ := Option.any_eq_true _ _ |>.mp ht
    refine reconcile_fine hw₁ (hs.later he) hk rfl rfl rfl rfl (by simp [Caller.outcome]) ⟨rfl, rfl, rfl⟩ ?_ nofun
    exact ⟨since, hs', (answered_read hnow fun _ _ => rfl).mono fun _ _ h => h ▸ of_decide_eq_true ht⟩
  case isFalse =>
    split
    case isTrue hn =>
      exact reconcile_fine hw₁ (hs.later he) hk rfl rfl rfl rfl (by simp [Caller.outcome]) ⟨rfl, rfl, rfl⟩
        ⟨_, rfl, hn⟩ nofun
    case isFalse =>
      exact Fine.perform_bind hw₁ (fun _ _ _ => trivial) fun _ _ _ _ _ => .done _

theorem reconcileSingleSettlement_fine (hw : w.WellFormed) (hs : D.Seen C s w) :
    (D.protocol C).Fine (reconcileSingleSettlement D s t) w := by
  unfold reconcileSingleSettlement
  simp only [Prog.bind_eq, Prog.throw_eq, Prog.pure_eq]
  split
  case h_2 => exact .done _
  case h_1 k hk =>
    refine Fine.perform_bind hw (fun _ _ _ => trivial) fun o w₁ he hw₁ ha => ?_
    have hs₁ := System.Past.later hs he
    split
    case h_1 => exact handleTransactionNotFound_fine hw₁ hs₁ hk
    case h_2 =>
      refine Fine.bind hw₁ (verifyPayment_sound w₁ hw₁).attempt fun v w₂ he₂ hw₂ _ => ?_
      have hs₂ := System.Past.later hs₁ he₂
      split
      case h_1 =>
        split
        case isTrue hv =>
          exact reconcile_fine hw₂ hs₂ hk rfl rfl rfl rfl (by simp [Caller.outcome]) ⟨rfl, rfl, rfl⟩ hv nofun
        case isFalse => exact .fail _
      case h_2 =>
        refine reconcile_fine hw₂ hs₂ hk rfl rfl rfl rfl (fun b h => ?_) ⟨rfl, rfl, rfl⟩ trivial fun _ => rfl
        have h := (Prod.mk.inj <| Option.some.inj h).2
        exact h ▸ (answered_getTransaction ha).later he₂
    case h_3 =>
      refine reconcile_fine hw₁ hs₁ hk rfl rfl rfl rfl (fun b h => ?_) ⟨rfl, rfl, rfl⟩ trivial nofun
      have h := (Prod.mk.inj <| Option.some.inj h).2
      exact h ▸ answered_getTransaction ha

theorem reconcilePendingSettlements_sound :
    (D.protocol C).Sound (reconcilePendingSettlements D n) := by
  intro w hw
  unfold reconcilePendingSettlements
  refine Fine.perform_bind hw (fun _ _ _ => trivial) fun now w₁ _ hw₁ _ => ?_
  refine Fine.perform_bind hw₁ (fun _ _ _ => trivial) fun rows w₂ _ hw₂ ha => ?_
  refine Fine.forEach hw₂ (seen_of_findSettlements ha) (fun _ _ _ => .later) fun s w₃ hw₃ hs => ?_
  split
  case isFalse => exact .done _
  case isTrue =>
    have hc : (D.protocol C).Sound (claimPendingConfirmation D n s) :=
      .bind (sound_act fun _ => trivial) fun _ => .bind (sound_act fun _ => trivial) fun _ => .done _
    refine Fine.bind hw₃ (hc w₃ hw₃) fun b w₄ he hw₄ _ => ?_
    split
    case isFalse => exact .done _
    case isTrue =>
      refine Fine.bind hw₄ (Fine.swallow hw₄ <| reconcileSingleSettlement_fine hw₄ <| hs.later he) ?_
      exact fun _ w₅ _ hw₅ _ => releaseSettlement_sound w₅ hw₅

theorem syncStaleVerifyingSettlements_sound :
    (D.protocol C).Sound (syncStaleVerifyingSettlements D n) := by
  intro w hw
  unfold syncStaleVerifyingSettlements
  refine Fine.perform_bind hw (fun _ _ _ => trivial) fun now w₁ _ hw₁ _ => ?_
  refine Safe.bind hw₁ <| .attempt <| .perform (fun _ _ _ => trivial) ?_ ?_
  case refine_2 => exact fun _ _ _ _ => Fine.done _
  case refine_1 =>
    intro rows w₂ _ hw₂ ha
    refine Fine.forEach hw₂ (seen_of_findSettlements ha) (fun _ _ _ => .later) fun s w₃ hw₃ hs => ?_
    split
    case isFalse => exact .done _
    case isTrue =>
      have hc : (D.protocol C).Sound (claimSettlementForSync D n s now) :=
        .bind (sound_act fun _ => trivial) fun _ => .done _
      refine Fine.bind hw₃ (hc w₃ hw₃) fun b w₄ he hw₄ _ => ?_
      split
      case isFalse => exact .done _
      case isTrue =>
        refine Fine.bind hw₄ (Fine.swallow hw₄ <| reconcileSingleSettlement_fine hw₄ <| hs.later he) ?_
        exact fun _ w₅ _ hw₅ _ => releaseSettlement_sound w₅ hw₅

theorem writeStatus_fine (hw : w.WellFormed) (hs : D.Seen C s w)
    (hn : next = .confirmed ∨ next = .failed) : (D.protocol C).Fine (writeStatus s next r n) w := by
  unfold writeStatus
  simp only [Prog.bind_eq, Prog.pure_eq]
  split
  case isTrue => exact .done _
  case isFalse =>
    refine Fine.perform_bind hw (fun _ he _ => ⟨hn, rfl, rfl, ?_⟩) fun _ w₁ he hw₁ ha => ?_
    · exact (hs.mono fun _ _ h => ⟨s, h, rfl⟩).later he
    · split
      case isFalse => exact .done _
      case isTrue hc =>
        split
        case h_2 => exact .done _
        case h_1 i hi =>
          refine .perform (fun w₂ he₂ _ => ⟨s.id, ?_, ?_⟩) (fun _ _ _ _ _ => trivial)
            (fun _ _ _ _ => trivial)
          · exact (hs.mono fun _ _ h => ⟨s, h, hi⟩).later (he.trans he₂)
          · exact (hc ▸ answered_writeStatus ha).later he₂

theorem reconcileRecord_fine (hw : w.WellFormed) (hs : D.Seen C s w) :
    (D.protocol C).Fine (reconcileRecord D s) w := by
  have ht : ∀ w, w.WellFormed → D.Seen C s w →
      (D.protocol C).Fine (reconcileRecord.checkTimeout D s) w := by
    intro w hw hs
    unfold reconcileRecord.checkTimeout failOrRetry
    refine Fine.perform_bind hw (fun _ _ _ => trivial) fun now w₁ he hw₁ _ => ?_
    split
    case isFalse => exact .done _
    case isTrue  => exact writeStatus_fine hw₁ (hs.later he) (.inr rfl)
  unfold reconcileRecord
  simp only [Prog.bind_eq, Prog.pure_eq]
  split
  case h_2 => exact .done _
  case h_1 k hk =>
    have hg : (D.protocol C).Sound (act (.getTransaction k)) := sound_act fun _ => trivial
    refine Fine.bind hw (hg w hw).attempt fun o w₁ he hw₁ _ => ?_
    have hs₁ := System.Past.later hs he
    split
    case h_1 =>
      split
      case isFalse => exact .done _
      case isTrue  => exact writeStatus_fine hw₁ hs₁ (.inl rfl)
    case h_2 => exact writeStatus_fine hw₁ hs₁ (.inr rfl)
    case h_3 => exact ht w₁ hw₁ hs₁
    case h_4 =>
      split
      case isFalse => exact .done _
      case isTrue  => exact ht w₁ hw₁ hs₁

theorem runReconciliation_sound : (D.protocol C).Sound (runReconciliation D) := by
  intro w hw
  unfold runReconciliation
  refine Fine.perform_bind hw (fun _ _ _ => trivial) fun now w₁ _ hw₁ _ => ?_
  refine Safe.bind hw₁ <| .attempt <| .perform (fun _ _ _ => trivial) ?_ ?_
  case refine_2 => exact fun _ _ _ _ => Fine.done _
  case refine_1 =>
    intro rows w₂ _ hw₂ ha
    exact Fine.forEach hw₂ (seen_of_findSettlements ha) (fun _ _ _ => .later) fun s w₃ hw₃ hs =>
      .swallow hw₃ <| reconcileRecord_fine hw₃ hs

theorem expireStaleSettlementIntents_sound :
    (D.protocol C).Sound expireStaleSettlementIntents :=
  .bind (sound_act fun _ => trivial) fun _ => .bind (sound_act fun _ => trivial) fun _ =>
    .forEach fun _ => .bind (sound_act fun _ => trivial) fun _ => .done _

end Reconciliation

-- All programs respect the protocol.
theorem Deps.entry_sound (D : Deps) (C : Act → World → Prop) (i : Entry) :
    (D.protocol C).Sound (D.entry i) := by
  cases i
  case createExpense                 => exact createExpense_sound
  case deleteExpense                 => exact deleteExpense_sound
  case settleExpense                 => exact settleExpense_sound
  case settleGroup                   => exact settleGroup_sound
  case confirm                       => exact confirm_sound
  case execute                       => exact execute_sound
  case processSubmittedSettlements   => exact processSubmittedSettlements_sound
  case recoverStaleSettlements       => exact recoverStaleSettlements_sound
  case reconcilePendingSettlements   => exact reconcilePendingSettlements_sound
  case syncStaleVerifyingSettlements => exact syncStaleVerifyingSettlements_sound
  case runReconciliation             => exact runReconciliation_sound
  case expireStaleSettlementIntents  => exact expireStaleSettlementIntents_sound

end Mergepay
