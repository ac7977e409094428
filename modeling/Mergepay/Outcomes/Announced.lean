import Mergepay.Outcomes.Publication
import Mergepay.Outcomes.Writes

namespace Mergepay.Outcomes

open Concurrency Money

-- What is said about a settlement: that it has been confirmed, or that it has failed.
abbrev Announcement :=
  String × SettlementStatus

def WebhookEventType.outcome : WebhookEventType → Option SettlementStatus
  | settlementCompleted | settlementConfirmed => some .confirmed
  | settlementFailed                          => some .failed
  | _                                         => none

def MergepayEvent.announcement (event : MergepayEvent) : Option Announcement :=
  event.eventType.outcome.map (event.payload.settlementId, ·)

def Delivery.announcement (row : Delivery) : Option Announcement :=
  row.eventType.outcome.map (row.payload.settlementId, ·)

def Task.announcement : Task → Option Announcement
  | notify settlementId eventType => eventType.outcome.map (settlementId, ·)
  | dispatch event                => event.announcement

def OutcomeAudit.announcement (row : OutcomeAudit) : Option Announcement :=
  if row.action = "settlement.completed" then some (row.entityId, .confirmed)
  else if row.action = "settlement.failed" then some (row.entityId, .failed)
  else none

-- All that has been published, or is about to be published by a task.
def OutcomeStore.announcements (s : OutcomeStore) : List Announcement :=
  s.audits.filterMap (·.announcement) ++ s.events.filterMap (·.announcement) ++
    s.deliveries.filterMap (·.announcement) ++ s.tasks.filterMap (·.announcement)

def OutcomeAction.announces : OutcomeAction → List Announcement
  | createAudit row       => row.announcement.toList
  | emit event            => event.announcement.toList
  | createDeliveries rows => rows.filterMap (·.announcement)
  | detach task           => task.announcement.toList
  | _                     => []

-- The settlement has made the transition since a certain state, or has a record of it.
def Made (s₀ s : OutcomeStore) (p : Announcement) : Prop :=
  s₀.status p.1 = some p.2 ∨ p.2 ∈ (s.changes p.1).map Prod.snd

def Known (s₀ s : OutcomeStore) (p : Announcement) : Prop :=
  p ∈ s₀.announcements ∨ Made s₀ s p

structure Justified (s₀ s : OutcomeStore) : Prop where
  announced : ∀ p ∈ s.announcements, Known s₀ s p
  terminal  : ∀ id status, s.status id = some status → status = .failed ∨ status = .confirmed →
    Made s₀ s (id, status)

section

variable {D : Deps} {s₀ s s' : OutcomeStore} {p : Announcement} {a : OutcomeAction} {log : OutcomeLog}

theorem Justified.init : Justified s s where
  announced := fun _ hp => .inl hp
  terminal  := fun _ _ hs _ => .inl hs

theorem mem_filterMap_singleton {f : α → Option β} {a : α} {b : β} : b ∈ [a].filterMap f ↔ b ∈ (f a).toList := by
  simp

theorem mem_announcements_effect (h : p ∈ (outcomeEffect a s).announcements) :
    p ∈ s.announcements ∨ p ∈ a.announces := by
  simp only [OutcomeStore.announcements, List.mem_append] at h ⊢
  cases a with
  | createAudit | emit | detach =>
    simp only [outcomeEffect, List.filterMap_append, List.mem_append, mem_filterMap_singleton] at h
    simp only [OutcomeAction.announces]
    tauto
  | createDeliveries =>
    simp only [outcomeEffect, List.filterMap_append, List.mem_append] at h
    simp only [OutcomeAction.announces]
    tauto
  | take =>
    refine .inl (h.imp_right fun h => ?_)
    exact (List.erase_sublist.filterMap _).subset h
  | _ => exact .inl h

-- Records are never removed.
theorem audits_effect : s.audits <+: (outcomeEffect a s).audits := by
  cases a with
  | createAudit row => exact List.prefix_append _ _
  | _               => exact List.prefix_refl _

theorem audits_view : s.audits <+: ((outcomeDatabase D).view log s).audits := by
  induction log generalizing s with
  | nil => exact List.prefix_refl _
  | cons e log hi =>
    obtain ⟨a, r⟩ := e
    cases r with
    | ok    => exact audits_effect.trans hi
    | error => exact hi

theorem Made.of_audits (h : Made s₀ s p) (ha : s.audits <+: s'.audits) : Made s₀ s' p := by
  refine h.imp_right fun hm => ?_
  have ⟨e, he, hp⟩ := List.mem_map.mp hm
  exact List.mem_map.mpr ⟨e, (ha.filterMap _).subset he, hp⟩

theorem Known.of_audits (h : Known s₀ s p) (ha : s.audits <+: s'.audits) : Known s₀ s' p :=
  h.imp_right (·.of_audits ha)

theorem Justified.of_aside (h : Justified s₀ s) (ha : Aside s s') : Justified s₀ s' where
  announced := fun p hp => by
    rw [OutcomeStore.announcements, ha.audits, ha.events, ha.deliveries, ha.tasks] at hp
    exact (h.announced p hp).of_audits (ha.audits ▸ List.prefix_refl _)
  terminal  := fun id status hs ht =>
    (h.terminal id status ((congrArg (Option.map _) (ha.settlement_eq id)).symm.trans hs) ht).of_audits
      (ha.audits ▸ List.prefix_refl _)

-- A write that is not about settlements.
theorem Justified.effect (h : Justified s₀ s) (ha : ∀ p ∈ a.announces, Known s₀ s p)
    (hs : ∀ id, (outcomeEffect a s).settlement id = s.settlement id) : Justified s₀ (outcomeEffect a s) where
  announced := fun p hp => (mem_announcements_effect hp).elim
    (fun hp => (h.announced p hp).of_audits audits_effect) (fun hp => (ha p hp).of_audits audits_effect)
  terminal  := fun id status hst ht =>
    (h.terminal id status ((congrArg (Option.map _) (hs id)).symm.trans hst) ht).of_audits audits_effect

-- An update that does not make a settlement fail or be confirmed.
theorem Justified.update {id : String} {data : Patch} (h : Justified s₀ s)
    (hd : ∀ status ∈ data.status, status = .pendingConfirmation) :
    Justified s₀ (outcomeEffect (.updateSettlement id data) s) where
  announced := fun p hp => (mem_announcements_effect hp).elim (h.announced p) fun hp => by cases hp
  terminal  := fun id' status hs ht => by
    have ⟨row, hrow, hst⟩ := Option.map_eq_some_iff.mp hs
    rw [settlement_of_patch (p := (·.id = id)) rfl] at hrow
    have ⟨row', hrow', hr⟩ := Option.map_eq_some_iff.mp hrow
    have same (he : row'.status = status) : Made s₀ s (id', status) :=
      h.terminal id' status (by rw [OutcomeStore.status, hrow', Option.map_some, he]) ht
    subst hr
    split at hst
    case isFalse => exact same hst
    case isTrue =>
      cases hs : data.status with
      | none       => exact same (by simpa [hs] using hst)
      | some next =>
        have hst : next = status := by simpa [hs] using hst
        rw [hd next hs] at hst
        subst hst
        rcases ht with ht | ht <;> cases ht

-- A transition is recorded when it is made.
theorem Justified.transition {params : TransitionParams} {settlement : Settlement} {rest : OutcomeLog}
    {v : TransitionResult} (h : Justified s₀ s) (hr : TransitionRuns params settlement rest v) :
    Justified s₀ ((outcomeDatabase D).view rest s) ∧ (v.changed = true →
      Made s₀ ((outcomeDatabase D).view rest s) (params.settlementId, params.nextStatus)) := by
  cases hr with
  | repeated | superseded => exact ⟨h, fun hv => by cases hv⟩
  | @updated data =>
    exact ⟨h.update fun status hs => by simp [data.property] at hs, fun hv => by cases hv⟩
  | @changed now _ rest hc hrest =>
    have haside := view_aside (D := D) (s := params.move settlement now s) hrest
    have haudits : s.audits <+: (params.move settlement now s).audits := List.prefix_append _ _
    have hmade : Made s₀ (params.move settlement now s) (params.settlementId, params.nextStatus) :=
      .inr (by simp [move_changes])
    have hj : Justified s₀ (params.move settlement now s) := by
      refine ⟨fun p hp => ?_, fun id status hs ht => ?_⟩
      · rcases mem_announcements_effect hp with hp | hp
        case inl =>
          rcases mem_announcements_effect hp with hp | hp
          case inl => exact (h.announced p hp).of_audits haudits
          case inr => cases hp
        case inr => simp [OutcomeAction.announces, OutcomeAudit.announcement, TransitionParams.statusChanged] at hp
      · obtain ⟨row, hrow, hst⟩ := Option.map_eq_some_iff.mp hs
        rw [move_settlement] at hrow
        obtain ⟨row', hrow', hr⟩ := Option.map_eq_some_iff.mp hrow
        subst hr
        split at hst
        case isFalse =>
          exact (h.terminal id status (by rw [OutcomeStore.status, hrow', Option.map_some, hst]) ht).of_audits haudits
        case isTrue hw =>
          have hid : row'.id = id := Table.key_of_row? hrow'
          have hst : params.nextStatus = status := by simpa [TransitionParams.data] using hst
          rw [← hid, hw.1, ← hst]
          exact hmade
    exact ⟨hj.of_aside haside, fun _ => hmade.of_audits (haside.audits ▸ List.prefix_refl _)⟩

end

-- A record that is added tells the status that the settlement has just got.
def Recorded (s s' : OutcomeStore) : Prop :=
  ∀ id, s'.changes id = s.changes id ∨ ∃ row row' read, s.settlement id = some row ∧
    s'.settlement id = some row' ∧ row.status.canTransitionSettlementStatus row'.status = true ∧
    s'.changes id = s.changes id ++ [(read, row'.status)]

theorem Recorded.of_aside {s s' : OutcomeStore} (h : Aside s s') : Recorded s s' :=
  fun id => .inl (h.changes_eq id)

theorem Recorded.transition {D : Deps} {s : OutcomeStore} {params : TransitionParams} {settlement : Settlement}
    {rest : OutcomeLog} {v : TransitionResult} (hr : TransitionRuns params settlement rest v)
    (ha : (outcomeDatabase D).admitted rest s = true) : Recorded s ((outcomeDatabase D).view rest s) := by
  intro id
  cases hr with
  | repeated | superseded | updated => exact .inl rfl
  | @changed now _ rest _ hrest =>
    have haside := view_aside (D := D) (s := params.move settlement now s) hrest
    have hchanges := (haside.changes_eq id).trans move_changes
    by_cases he : params.settlementId = id
    case neg => exact .inl (hchanges.trans (by simp [he]))
    case pos =>
      subst he
      -- The guard still holds when the transaction commits.
      have ⟨hadmits, _⟩ := (Bool.and_eq_true ..).mp ((Bool.and_eq_true ..).mp ha).2
      have ⟨row, hrow, hg⟩ := (Option.any_eq_true ..).mp hadmits
      have hrow : s.settlement params.settlementId = some row := hrow
      have hg : row.status ∈ params.nextStatus.allowedFromStatuses := of_decide_eq_true hg
      have hid : row.id = params.settlementId := Table.key_of_row? hrow
      have hrow' := (haside.settlement_eq params.settlementId).trans (move_settlement.trans (congrArg _ hrow))
      rw [Option.map_some, if_pos ⟨hid, hg⟩] at hrow'
      refine .inr ⟨row, _, settlement.status, hrow, hrow', ?_, hchanges.trans ?_⟩
      · simpa [TransitionParams.data] using (SettlementStatus.mem_allowedFromStatuses.mp hg).2
      · simp [TransitionParams.data]

-- The transitions whose outcome is published by reconciliation, whether they happen or not. Giving up counts
-- one more attempt.
def ReconcilableSettlement.publishes (settlement : ReconcilableSettlement) (data : Patch) : Bool :=
  data.status = some .confirmed ∨ data.status = some .failed ∧ data.retryCount = some settlement.row.retryCount

-- When such a transition performs its update, the settlement may still make it, or has made it already.
def OnTime : OutcomeStep OutcomeRequest → OutcomeStore → Prop
  | .act (.reconcile settlement _) _ (.updateMany id allowed data), s => settlement.publishes data = true →
    (s.settlement id).any (fun row => row.status ∈ allowed ∨ some row.status = data.status) = true
  | _, _ => True

instance (a : OutcomeStep OutcomeRequest) (s : OutcomeStore) : Decidable (OnTime a s) := by
  unfold OnTime
  split <;> infer_instance

def publicationDue (D : Deps) (s₀ : OutcomeStore) : OutcomeStep OutcomeRequest → OutcomeStore → Prop
  | .act _ _ _, _    => True
  | .commit _ log, s => Justified s₀ ((outcomeDatabase D).view log s) ∧
    ((outcomeDatabase D).admitted log s = true → Recorded s ((outcomeDatabase D).view log s))

def publicationProtocol (D : Deps) (s₀ : OutcomeStore) : Protocol (outcomeServer D) :=
  Database.protocol OnTime (publicationDue D s₀) (Justified s₀) (fun _ _ _ _ _ hd _ => hd.1)
    fun _ _ _ hi he => hi.of_aside (outcomeEnv_aside he)

section

variable {D : Deps} {i : OutcomeRequest} {s₀ s s' : OutcomeStore} {p : Announcement} {a : OutcomeAction}

theorem audits_evolves
    (he : (outcomeServer D).Evolves (publicationProtocol D s₀).cond s s') : s.audits <+: s'.audits := by
  induction he with
  | refl           => exact List.prefix_refl _
  | env _ hx hi => exact hi.trans ((outcomeEnv_aside hx).audits ▸ List.prefix_refl _)
  | @act b x s₁ s₂ s₃ r _ _ hx hi =>
    cases b with
    | act j log a    => exact (Database.exec_act hx).1 ▸ hi
    | commit j log =>
      rcases (Database.exec_commit hx).2 with ⟨_, hs⟩ | ⟨_, _, hs, _⟩
      case inl => exact hs ▸ hi.trans audits_view
      case inr => exact hs ▸ hi

theorem Known.later (h : Known s₀ s p)
    (he : (outcomeServer D).Evolves (publicationProtocol D s₀).cond s s') : Known s₀ s' p :=
  h.of_audits (audits_evolves he)

theorem call_sound (a : OutcomeAction) : (publicationProtocol D s₀).Sound (call i a) :=
  .perform fun _ _ => trivial

theorem observe_sound (p : M α) : (publicationProtocol D s₀).Sound (observe i p) := by
  induction p with
  | done v      => exact .done v
  | fail e      => exact .fail e
  | call a k hi =>
    exact fun s _ => .of_call fun s₁ _ _ => ⟨trivial, fun hc x r s₂ hx => hi r s₂ ((publicationProtocol D s₀).exec ‹_› hc hx)⟩

theorem statement_safe {Q : a.Answer → OutcomeStore → Prop}
    (hr : ∀ s id, (outcomeEffect a s).changes id = s.changes id)
    (hd : ∀ s₁, (outcomeServer D).Evolves (publicationProtocol D s₀).cond s s₁ → Justified s₀ s₁ →
      Justified s₀ (outcomeEffect a s₁))
    (hq : ∀ v x s₁ s₂, (outcomeServer D).Evolves (publicationProtocol D s₀).cond s s₁ → Justified s₀ s₁ →
      outcomeAnswer D a x s₁ = some (.ok v) → s₁.audits <+: s₂.audits → Q v s₂) :
    (publicationProtocol D s₀).Safe (statement i a) Q (fun _ _ => True) s :=
  Database.Transacts.safe {
    act  := fun _ _ _ => trivial
    due  := fun h _ hi he => by
      rw [h.of_perform]
      exact ⟨hd _ he hi, fun _ id => .inl (hr _ id)⟩
    done := fun h ht hi he hc had he' _ => by
      rw [h.of_perform] at ht
      have ⟨x, s₁, hb, _, _, hr⟩ := ht [] _ [] rfl
      exact hq _ x s₁ _ hb.before hb.inv hr
        (((audits_evolves hb.after).trans audits_view).trans (audits_evolves he'))
    fail := fun _ _ _ _ => trivial
    lost := fun _ _ _ => trivial
  }

theorem found_settlement {id : String} {row : Settlement} {x : OutcomeChoice}
    (h : outcomeAnswer D (.findSettlement id) x s = some (.ok (some row))) : s.settlement id = some row := by
  have hr : some (.ok (s.settlement id)) = some (.ok (some row) : Except Failure (Option Settlement)) := by
    cases x <;> first | exact h | cases h
  exact Except.ok.inj (Option.some.inj hr)

theorem read_settlement {id : String} {row : Settlement} {x : OutcomeChoice}
    (h : (outcomeServer D).exec (.act i [] (.findSettlement id)) x s = some (.ok (some row), s')) :
    s.settlement id = some row := by
  have h : (outcomeDatabase D).exec (.act i [] (.findSettlement id)) x s = some (.ok (some row), s') := h
  exact found_settlement (Database.exec_act h).2.2

-- What is known may be published.
theorem publish_fine (hk : ∀ p ∈ a.announces, Known s₀ s p)
    (hs : ∀ s id, (outcomeEffect a s).settlement id = s.settlement id)
    (hr : ∀ s id, (outcomeEffect a s).changes id = s.changes id) :
    (publicationProtocol D s₀).Fine (statement i a) s :=
  statement_safe hr (fun _ he hj => hj.effect (fun p hp => (hk p hp).later he) (hs _))
    fun _ _ _ _ _ _ _ _ => trivial

theorem queueWebhookEvent_fine {event : MergepayEvent} (hi : Justified s₀ s)
    (hk : ∀ p ∈ event.announcement, Known s₀ s p) :
    (publicationProtocol D s₀).Fine (queueWebhookEvent i event) s := by
  unfold queueWebhookEvent
  split
  case h_1 => exact .done ()
  case h_2 groupId _ =>
    refine .perform_bind hi (fun _ _ _ => trivial) fun webhooks s₁ he₁ hi₁ _ => ?_
    split
    case isFalse => exact .done ()
    case isTrue =>
      refine .perform_bind hi₁ (fun _ _ _ => trivial) fun now s₂ he₂ _ _ => ?_
      refine publish_fine (fun p hp => ?_) (fun _ _ => rfl) fun _ _ => rfl
      obtain ⟨row, hrow, hp⟩ := List.mem_filterMap.mp hp
      obtain ⟨webhook, _, rfl⟩ := List.mem_map.mp hrow
      exact (hk p hp).later (he₁.trans he₂)

theorem notifySettlementTransition_fine {id : String} {next : SettlementStatus}
    (hk : next = .failed ∨ next = .confirmed → Known s₀ s (id, next)) :
    (publicationProtocol D s₀).Fine (notifySettlementTransition i id next) s := by
  unfold notifySettlementTransition
  split
  case h_1 => exact .done ()
  case h_2 eventType he =>
    refine publish_fine (fun p hp => ?_) (fun _ _ => rfl) fun _ _ => rfl
    cases next <;> cases he <;> cases List.mem_singleton.mp hp <;> exact hk (by simp)

theorem runTask_fine {task : Task} (hi : Justified s₀ s) :
    (publicationProtocol D s₀).Fine (runTask i task) s := by
  -- The task has been started with something that is known.
  refine .bind hi (statement_safe (Q := fun _ s' => ∀ p ∈ task.announcement, Known s₀ s' p)
    (fun _ _ => rfl) (fun s₁ _ hj => hj.effect (fun p hp => by cases hp) fun _ => rfl)
    fun v x s₁ s₂ _ hj hx ha p hp => ?_) fun _ s₁ _ hi₁ hk => ?_
  · have hm : task ∈ s₁.tasks := by
      cases x <;> simp [outcomeAnswer, World.connectionClosed] at hx
      exact hx
    refine (hj.announced p ?_).of_audits ha
    exact List.mem_append_right _ (List.mem_filterMap.mpr ⟨task, hm, hp⟩)
  · cases task with
    | dispatch event => exact (queueWebhookEvent_fine hi₁ hk).swallow hi₁
    | notify id eventType =>
      refine .swallow hi₁ ?_
      refine .perform_bind hi₁ (fun _ _ _ => trivial) fun found s₂ he₂ hi₂ hfound => ?_
      split
      case h_1 => exact .done ()
      case h_2 row =>
        have hid : row.id = id := by
          have ⟨_, _, hid, _⟩ := hfound.before (F := fun _ => row.id = id)
            fun x s₃ s₄ _ hx => Table.key_of_row? (read_settlement hx)
          exact hid
        have hk' (p) (hp : p ∈ MergepayEvent.announcement ⟨eventType, .announced row, some row.groupId⟩) :
            Known s₀ s₂ p :=
          (hk p (by simpa [MergepayEvent.announcement, EventPayload.settlementId, Task.announcement, hid] using hp)).later he₂
        refine .bind hi₂ (publish_fine (fun p hp => hk' p (Option.mem_toList.mp hp)) (fun _ _ => rfl)
          fun _ _ => rfl)
          fun _ s₃ he₃ hi₃ _ => queueWebhookEvent_fine hi₃ fun p hp => (hk' p hp).later he₃

variable {params : TransitionParams} {settlement : ReconcilableSettlement} {maxRetries : Nat}

theorem outcome_of_publishes {now : Time} (h : settlement.publishes (params.data now) = true) :
    params.nextStatus = .failed ∨ params.nextStatus = .confirmed := by
  simp only [ReconcilableSettlement.publishes, TransitionParams.data, Option.some.injEq,
    decide_eq_true_eq] at h
  exact h.elim .inr fun h => .inl h.1

-- A transition that reconciliation publishes has been made, even if it does not change anything.
theorem made_of_unchanged {row : Settlement} {rest : OutcomeLog} {v : TransitionResult}
    (hi : i = .reconcile settlement maxRetries)
    (hp : ∀ now, settlement.publishes (params.data now) = true)
    (ht : Database.Traced (publicationProtocol D s₀) i s s'
      (⟨.findSettlement params.settlementId, .ok (some row)⟩ :: rest))
    (hr : TransitionRuns params row rest v) (hv : v.changed = false) :
    Made s₀ s' (params.settlementId, params.nextStatus) := by
  have hout := outcome_of_publishes (hp 0)
  -- The status has been the next one at some point.
  have past {s₁ : OutcomeStore} (hb : Database.Between (publicationProtocol D s₀) s s' s₁)
      (hs : s₁.status params.settlementId = some params.nextStatus) :
      Made s₀ s' (params.settlementId, params.nextStatus) :=
    (hb.inv.terminal _ _ hs hout).of_audits (audits_evolves hb.after)
  have read (h : params.nextStatus = row.status) : Made s₀ s' (params.settlementId, params.nextStatus) := by
    have ⟨x, s₁, hb, _, _, hx⟩ := ht [] _ rest rfl
    have hrow : s₁.settlement params.settlementId = some row := found_settlement hx
    exact past hb (by rw [OutcomeStore.status, hrow, Option.map_some, h])
  cases hr with
  | repeated h => exact read h
  | updated h  => exact read h
  | changed    => cases hv
  | superseded =>
    have ⟨x, s₁, hb, hc, _, hx⟩ := ht [_, _] _ [_] rfl
    subst hi
    have ⟨row', hrow', hst⟩ := (Option.any_eq_true ..).mp (hc.1 (hp _))
    refine past hb ?_
    rcases of_decide_eq_true hst with hst | hst
    case inr =>
      rw [OutcomeStore.status, show s₁.settlement params.settlementId = some row' from hrow', Option.map_some]
      exact hst
    case inl =>
      have hrow' : s₁.settlement params.settlementId = some row' := hrow'
      have hx : outcomeAnswer D (.updateMany params.settlementId params.nextStatus.allowedFromStatuses
        (params.data _)) x s₁ = some (.error noneMatched) := hx
      cases x <;> simp [outcomeAnswer, hrow', hst, World.connectionClosed, noneMatched] at hx

theorem transition_safe (hi : Justified s₀ s) :
    (publicationProtocol D s₀).Safe (transition i params)
      (fun _ s' => ∀ settlement maxRetries, i = .reconcile settlement maxRetries →
        (∀ now, settlement.publishes (params.data now) = true) →
        Known s₀ s' (params.settlementId, params.nextStatus)) (fun _ _ => True) s := by
  refine .bind hi <| Protocol.Safe.mono (Q := fun v s' =>
    (v.changed = true → Known s₀ s' (params.settlementId, params.nextStatus)) ∧
    ∀ settlement maxRetries, i = .reconcile settlement maxRetries →
      (∀ now, settlement.publishes (params.data now) = true) →
      Known s₀ s' (params.settlementId, params.nextStatus)) (E := fun _ _ => True) ?_
    (fun v s₁ _ hi₁ hv => ?_) fun _ _ _ _ h => h
  case refine_1 =>
    refine Database.Transacts.safe {
      act  := fun _ _ _ => trivial
      due  := fun h _ hi _ => ?_
      done := fun {log v s₁ s₂} h ht hi _ _ _ he _ => ?_
      fail := fun _ _ _ _ => trivial
      lost := fun _ _ _ => trivial
    }
    · obtain ⟨row, rest, rfl, hr⟩ := applySettlementTransition_done h
      exact ⟨(Justified.transition hi hr).1, fun ha =>
        show Recorded _ ((outcomeDatabase D).view rest _) from .transition hr ha⟩
    · obtain ⟨row, rest, rfl, hr⟩ := applySettlementTransition_done h
      have made (hv : v.changed = true) : Known s₀ s₂ (params.settlementId, params.nextStatus) :=
        .inr <| ((Justified.transition (D := D) hi hr).2 hv).of_audits (audits_evolves he)
      refine ⟨made, fun settlement maxRetries hi hp => ?_⟩
      cases hv : v.changed with
      | true  => exact made hv
      | false =>
        exact .inr <| (made_of_unchanged hi hp ht hr hv).of_audits (audits_view.trans (audits_evolves he))
  case refine_2 =>
    have ⟨hchanged, hpub⟩ := hv
    simp only [Prog.bind_eq]
    split
    case isTrue hc =>
      refine .bind hi₁ <| (notifySettlementTransition_fine fun _ => hchanged hc).mono
        (fun _ s₂ he₂ _ _ => ?_) fun _ _ _ _ h => h
      exact .done fun s₃ he₃ _ settlement maxRetries hi hp => (hpub settlement maxRetries hi hp).later (he₂.trans he₃)
    case isFalse =>
      exact .done fun s₃ he₃ _ settlement maxRetries hi hp => (hpub settlement maxRetries hi hp).later he₃

theorem transition_fine (hi : Justified s₀ s) : (publicationProtocol D s₀).Fine (transition i params) s :=
  (transition_safe hi).fine

theorem audit_fine {row : OutcomeAudit} (hi : Justified s₀ s) (hk : ∀ p ∈ row.announcement, Known s₀ s p)
    (hr : ∀ id, row.change id = none) : (publicationProtocol D s₀).Fine (audit i row) s := by
  refine (publish_fine (a := .createAudit row) (fun p hp => hk p (Option.mem_toList.mp hp))
    (fun _ _ => rfl) fun s id => ?_).swallow hi
  simp [OutcomeStore.changes, outcomeEffect, hr id]

-- An outcome is published after the transition.
theorem publication_fine {row : OutcomeAudit} {event : MergepayEvent} (hi : Justified s₀ s)
    (hp : ∀ now, settlement.publishes (params.data now) = true)
    (hr : ∀ p ∈ row.announcement, p = (params.settlementId, params.nextStatus))
    (hc : ∀ id, row.change id = none)
    (he : ∀ p ∈ event.announcement, p = (params.settlementId, params.nextStatus)) :
    (publicationProtocol D s₀).Fine (do
      let _ ← transition (.reconcile settlement maxRetries) params
      audit (.reconcile settlement maxRetries) row
      dispatchEvent (.reconcile settlement maxRetries) event) s := by
  refine .bind hi ((transition_safe hi).mono (fun _ _ _ _ h => h settlement maxRetries rfl hp)
    fun _ _ _ _ h => h) fun _ s₁ _ hi₁ hk => ?_
  refine .bind hi₁ (audit_fine hi₁ (fun p hp => hr p hp ▸ hk) hc) fun _ s₂ he₂ _ _ => ?_
  exact publish_fine (fun p hp => (he p (Option.mem_toList.mp hp) ▸ hk).later he₂) (fun _ _ => rfl)
    fun _ _ => rfl

theorem handleTransactionNotFound_fine {hash : String} (hi : Justified s₀ s) :
    (publicationProtocol D s₀).Fine (handleTransactionNotFound i settlement D hash maxRetries) s := by
  refine .perform_bind hi (fun _ _ _ => trivial) fun now s₁ _ hi₁ _ => ?_
  split
  case isTrue => exact .bind hi₁ (transition_fine hi₁) fun _ _ _ _ _ => .done ()
  case isFalse =>
    split
    case isTrue =>
      refine .bind hi₁ (transition_fine hi₁) fun _ s₂ _ hi₂ _ => audit_fine hi₂ (fun p hp => ?_) fun id => ?_
      · simp [OutcomeAudit.announcement, reconciliationAudit] at hp
      · simp [OutcomeAudit.change, reconciliationAudit]
    case isFalse =>
      refine .bind hi₁ (statement_safe (fun _ _ => rfl) (fun s₂ _ hj => hj.update fun status hs => ?_)
        fun _ _ _ _ _ _ _ _ => trivial) fun _ _ _ _ _ => .done ()
      simp only at hs
      split at hs <;> cases hs
      rfl

theorem reconcileSingleSettlement_fine (hi : Justified s₀ s) : (publicationProtocol D s₀).Fine
    (reconcileSingleSettlement (.reconcile settlement maxRetries) settlement D maxRetries) s := by
  unfold reconcileSingleSettlement
  split
  case h_1 => exact .done ()
  case h_2 hash _ =>
    refine .bind hi (observe_sound _ s hi) fun found s₁ _ hi₁ _ => ?_
    split
    case h_1 => exact handleTransactionNotFound_fine hi₁
    case h_2 =>
      refine .bind hi₁ (observe_sound _ s₁ hi₁).attempt fun verified s₂ _ hi₂ _ => ?_
      split
      case h_1 e =>
        split
        case isFalse => exact .fail e
        case isTrue =>
          refine publication_fine hi₂ (fun _ => ?_) (fun p hp => ?_) (fun id => ?_) fun p hp => ?_
          · simp [ReconcilableSettlement.publishes, TransitionParams.data]
          · simp [OutcomeAudit.announcement, reconciliationAudit] at hp
          · simp [OutcomeAudit.change, reconciliationAudit]
          · cases hp
            rfl
      case h_2 =>
        refine publication_fine hi₂ (fun _ => ?_) (fun p hp => ?_) (fun id => ?_) fun p hp => ?_
        · simp [ReconcilableSettlement.publishes, TransitionParams.data]
        · cases hp
          rfl
        · simp [OutcomeAudit.change, reconciliationAudit]
        · cases hp
          rfl
    case h_3 =>
      refine publication_fine hi₁ (fun _ => ?_) (fun p hp => ?_) (fun id => ?_) fun p hp => ?_
      · simp [ReconcilableSettlement.publishes, TransitionParams.data]
      · simp [OutcomeAudit.announcement, reconciliationAudit] at hp
        exact hp.symm
      · simp [OutcomeAudit.change, reconciliationAudit]
      · cases hp
        rfl

theorem outcomeRequest_sound (i : OutcomeRequest) :
    (publicationProtocol D s₀).Sound (outcomeRequest D i) := by
  intro s hi
  cases i with
  | transition params    => exact .bind hi (transition_fine hi) fun _ _ _ _ _ => .done ()
  | reconcile settlement => exact reconcileSingleSettlement_fine hi
  | task task            => exact runTask_fine hi

theorem holds_run {c : OutcomeConfig} (r : (outcomeServer D).Run OnTime ⟨s, []⟩ c) :
    (publicationProtocol D s).Holds c :=
  (Protocol.Holds.init (P := publicationProtocol D s) Justified.init).run_due (fun _ _ => And.intro)
    outcomeRequest_sound r

theorem recorded_next {c c' : OutcomeConfig} {l : Label OutcomeChoice Event OutcomeRequest}
    (r : (outcomeServer D).Run OnTime ⟨s, []⟩ c) (m : c.Meets OnTime l)
    (hn : (outcomeServer D).next l c = some c') : Recorded c.shared c'.shared := by
  have h := holds_run r
  rcases h.next_cases (h.meets_due (fun _ _ => And.intro) m) hn with he | ⟨e, he⟩ | ⟨a, x, v, hc, _, hx⟩
  case inl     => exact fun id => .inl (he ▸ rfl)
  case inr.inl => exact .of_aside (outcomeEnv_aside he)
  case inr.inr =>
    cases a with
    | act j log a => exact fun id => .inl ((Database.exec_act hx).1 ▸ rfl)
    | commit j log =>
      have ⟨ha, hs⟩ := Database.exec_commit hx
      rcases hs with ⟨_, hs⟩ | ⟨_, _, hs, _⟩
      case inl => exact hs ▸ hc.2.2 ha
      case inr => exact fun id => .inl (hs ▸ rfl)

end

end Mergepay.Outcomes
