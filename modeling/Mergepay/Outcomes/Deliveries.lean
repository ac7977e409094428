import Mergepay.Concurrency.Account
import Mergepay.Outcomes.Announced

namespace Mergepay.Outcomes

open Concurrency Money

-- The deliveries to an endpoint which say that a settlement has failed.
def Delivery.reports (webhook : Webhook) (id : String) (row : Delivery) : Bool :=
  row.webhookId = webhook.id ∧ row.eventType = .settlementFailed ∧ row.payload.settlementId = id

def MergepayEvent.reports (webhook : Webhook) (id : String) (event : MergepayEvent) : Bool :=
  event.eventType = .settlementFailed ∧ event.payload.settlementId = id ∧ event.groupId = webhook.groupId

-- The tasks that are going to queue such a delivery.
def Task.reports (webhook : Webhook) (id : String) : Task → Bool
  | notify settlementId eventType => settlementId = id ∧ eventType = .settlementFailed
  | dispatch event                => event.reports webhook id

namespace OutcomeStore

variable (s : OutcomeStore) (webhook : Webhook) (id : String)

def reported : Nat :=
  s.deliveries.countP (·.reports webhook id)

def pending : Nat :=
  s.tasks.countP (·.reports webhook id)

-- How often the settlement has failed.
def failures : Nat :=
  (s.changes id).countP (·.2 = .failed)

-- The deliveries that there are, or will be, on top of the failures that have been recorded.
def surplus : Int :=
  s.reported webhook id + s.pending webhook id - s.failures id

end OutcomeStore

-- An endpoint that wants to know about the failures of a settlement of its group. Endpoints do not change.
structure Subscribed (webhooks : List Webhook) (webhook : Webhook) (groupId : String) : Prop where
  mem     : webhook ∈ webhooks
  enabled : webhook.enabled = true
  event   : .settlementFailed ∈ webhook.events
  group   : webhook.groupId = some groupId
  named   : present groupId = some groupId
  ids     : (webhooks.map (·.id)).Nodup

-- Reconciliation does not dispatch a failure on its own.
def LeftToMachine : OutcomeStep OutcomeRequest → OutcomeStore → Prop
  | .commit _ log, _ => ∀ a ∈ log.performed, match a with
    | .detach (.dispatch event) => event.eventType ≠ .settlementFailed
    | _                         => True
  | .act _ _ _, _ => True

instance (a : OutcomeStep OutcomeRequest) (s : OutcomeStore) : Decidable (LeftToMachine a s) := by
  induction a using Database.Step.casesOn with
  | act _ _ _ => exact inferInstanceAs (Decidable True)
  | commit _ log =>
    refine @List.decidableBAll _ _ (fun a => ?_) log.performed
    induction a using OutcomeAction.casesOn with
    | detach t =>
      induction t using Task.casesOn with
      | dispatch event => exact inferInstanceAs (Decidable (event.eventType ≠ .settlementFailed))
      | _              => exact inferInstanceAs (Decidable True)
    | _ => exact inferInstanceAs (Decidable True)

-- The connection to the database is not lost.
def OutcomeChoice.answered : OutcomeChoice → Prop
  | lost                 => False
  | plain | observed _ => True

instance : DecidablePred OutcomeChoice.answered
  | .lost                  => inferInstanceAs (Decidable False)
  | .plain | .observed _ => inferInstanceAs (Decidable True)

-- What does not change in the course of a run.
def Fixed (webhooks : List Webhook) (id groupId : String) (s : OutcomeStore) : Prop :=
  s.webhooks = webhooks ∧ ∃ row, s.settlement id = some row ∧ row.groupId = groupId

section

variable {D : Deps} {webhooks : List Webhook} {webhook : Webhook} {id groupId : String} {s s' : OutcomeStore}
  {a : OutcomeAction} {log : OutcomeLog}

theorem Fixed.of_aside (h : Fixed webhooks id groupId s) (ha : Aside s s') : Fixed webhooks id groupId s' := by
  have ⟨hw, row, hrow, hg⟩ := h
  exact ⟨ha.webhooks.trans hw, row, (ha.settlement_eq id).trans hrow, hg⟩

theorem Fixed.effect (h : Fixed webhooks id groupId s) : Fixed webhooks id groupId (outcomeEffect a s) := by
  have ⟨hw, row, hrow, hg⟩ := h
  have patched {p : Settlement → Bool} {data : Patch} {s' : OutcomeStore} (hw' : s'.webhooks = s.webhooks)
      (hs : s'.world.settlements = Table.update p (·.patch data s.world.now) s.world.settlements) :
      Fixed webhooks id groupId s' := by
    refine ⟨hw'.trans hw, _, (settlement_of_patch hs).trans (congrArg _ hrow), ?_⟩
    simp only
    split
    · exact hg
    · exact hg
  cases a with
  | updateSettlement | updateMany => exact patched rfl rfl
  | _                             => exact ⟨hw, row, hrow, hg⟩

theorem Fixed.view (h : Fixed webhooks id groupId s) :
    Fixed webhooks id groupId ((outcomeDatabase D).view log s) := by
  induction log generalizing s with
  | nil => exact h
  | cons e log hi =>
    obtain ⟨a, r⟩ := e
    cases r with
    | ok    => exact hi h.effect
    | error => exact hi h

theorem surplus_of_aside (h : Aside s s') : s'.surplus webhook id = s.surplus webhook id := by
  rw [OutcomeStore.surplus, OutcomeStore.reported, OutcomeStore.pending, OutcomeStore.failures, h.deliveries,
    h.tasks, h.changes_eq]
  rfl

end

def deliveryAccount (D : Deps) (webhooks : List Webhook) (webhook : Webhook) (id groupId : String) :
    Account (outcomeServer D) where
  balance := (·.surplus webhook id)
  choices := OutcomeChoice.answered
  cond    := LeftToMachine
  inv     := Fixed webhooks id groupId
  exec    := fun {a x s s' r} hi _ _ hx => by
    cases a with
    | act i log a => exact (Database.exec_act hx).1 ▸ hi
    | commit i log =>
      rcases (Database.exec_commit hx).2 with ⟨_, hs⟩ | ⟨_, _, hs, _⟩
      case inl => exact hs ▸ hi.view
      case inr => exact hs ▸ hi
  env     := fun hi hx => ⟨hi.of_aside (outcomeEnv_aside hx), surplus_of_aside (outcomeEnv_aside hx)⟩

section

variable {D : Deps} {webhooks : List Webhook} {webhook : Webhook} {id groupId : String} {s s' : OutcomeStore}
  {a : OutcomeAction} {log : OutcomeLog} {i : OutcomeRequest} {n : Int}

-- A program that brings about a certain change of what it owes.
abbrev Owing (D : Deps) (webhooks : List Webhook) (webhook : Webhook) (id groupId : String)
    (p : PublicationSession α) (n m : Int) : Prop :=
  (deliveryAccount D webhooks webhook id groupId).Pays p (fun _ n => n = m) (fun _ n => n = m) n

theorem statement_pays {Q : a.Answer → Int → Prop} {E : Failure → Int → Prop}
    (hd : ∀ s v, Fixed webhooks id groupId s → LeftToMachine (.commit i [⟨a, .ok v⟩]) s →
      outcomeAdmits a s = true → Q v (n + (s.surplus webhook id - (outcomeEffect a s).surplus webhook id)))
    (hf : ∀ x s e, x.answered → outcomeAnswer D a x s = some (.error e) → E e n) :
    (deliveryAccount D webhooks webhook id groupId).Pays (statement i a) Q E n := by
  refine .transaction (fun log v s h hi hc ha => ?_) (fun log e h hl => ?_) fun x e hx he => ?_
  · have hl := h.of_perform
    subst hl
    exact hd s v hi hc ((Bool.and_eq_true ..).mp ha).1
  · have hl' := h.of_perform_fail
    subst hl'
    have ⟨x, s, hx, ha⟩ := hl _ List.mem_cons_self
    exact hf x s e hx ha
  · cases x <;> cases he
    exact hx.elim

-- A statement that has nothing to do with deliveries.
theorem aside_pays (hs : ∀ s, (outcomeEffect a s).surplus webhook id = s.surplus webhook id) :
    Owing D webhooks webhook id groupId (statement i a) n n :=
  statement_pays (fun s _ _ _ _ => by rw [hs, sub_self, add_zero]) fun _ _ _ _ _ => rfl

theorem call_pays {Q : a.Answer → Int → Prop} {E : Failure → Int → Prop}
    (hq : ∀ x s v, Fixed webhooks id groupId s → x.answered → outcomeAnswer D a x s = some (.ok v) → Q v n)
    (he : ∀ x s e, x.answered → outcomeAnswer D a x s = some (.error e) → E e n) :
    (deliveryAccount D webhooks webhook id groupId).Pays (call i a) Q E n := by
  refine .perform fun x s r s' hi hx _ ha => ?_
  have ha : (outcomeDatabase D).exec (.act i [] a) x s = some (r, s') := ha
  obtain ⟨rfl, _, hr⟩ := Database.exec_act ha
  refine ⟨rfl, ?_⟩
  cases r with
  | ok v    => exact hq x s' v hi hx hr
  | error e => exact he x s' e hx hr

theorem observe_pays {p : M α} : Owing D webhooks webhook id groupId (observe i p) n n := by
  induction p with
  | done v      => exact .done rfl
  | fail e      => exact .fail rfl
  | call a k hi =>
    refine .call fun x s r s' _ _ _ ha => ?_
    have ha : (outcomeDatabase D).exec (.act i [] (.observe a)) x s = some (r, s') := ha
    rw [(Database.exec_act ha).1, sub_self, add_zero]
    exact hi r

theorem detach_surplus {task : Task} : (outcomeEffect (.detach task) s).surplus webhook id =
    s.surplus webhook id + if task.reports webhook id then 1 else 0 := by
  simp only [OutcomeStore.surplus, OutcomeStore.pending, OutcomeStore.reported, OutcomeStore.failures,
    OutcomeStore.changes, outcomeEffect, List.countP_append, List.countP_singleton]
  split <;> push_cast <;> ring

theorem take_surplus {task : Task} (h : task ∈ s.tasks) : s.surplus webhook id =
    (outcomeEffect (.take task) s).surplus webhook id + if task.reports webhook id then 1 else 0 := by
  have hp := (List.perm_cons_erase h).countP_eq (·.reports webhook id)
  rw [List.countP_cons] at hp
  simp only [OutcomeStore.surplus, OutcomeStore.pending, OutcomeStore.reported, OutcomeStore.failures,
    OutcomeStore.changes, outcomeEffect, hp]
  split <;> push_cast <;> ring

theorem createDeliveries_surplus {rows : List Delivery} :
    (outcomeEffect (.createDeliveries rows) s).surplus webhook id =
      s.surplus webhook id + rows.countP (·.reports webhook id) := by
  simp only [OutcomeStore.surplus, OutcomeStore.pending, OutcomeStore.reported, OutcomeStore.failures,
    OutcomeStore.changes, outcomeEffect, List.countP_append]
  push_cast
  ring

-- What is left by a transition.
theorem transition_surplus {params : TransitionParams} {settlement : Settlement} {rest : OutcomeLog}
    {v : TransitionResult} (hr : TransitionRuns params settlement rest v) :
    s.surplus webhook id = ((outcomeDatabase D).view rest s).surplus webhook id +
      if v.changed ∧ params.settlementId = id ∧ params.nextStatus = .failed then 1 else 0 := by
  cases hr with
  | repeated | superseded | updated =>
    simp only [Bool.false_eq_true, false_and, if_false, add_zero]
    rfl
  | @changed now _ rest _ hrest =>
    have haside := view_aside (D := D) (s := params.move settlement now s) hrest
    refine Eq.trans ?_ (congrArg (· + _) (surplus_of_aside haside).symm)
    simp only [OutcomeStore.surplus, OutcomeStore.failures, move_changes, List.countP_append]
    simp only [OutcomeStore.pending, OutcomeStore.reported, TransitionParams.move, outcomeEffect, true_and]
    by_cases he : params.settlementId = id
    case neg => simp [he]
    case pos =>
      by_cases hn : params.nextStatus = .failed
      · simp only [he, hn, if_true, and_self, List.countP_singleton, decide_true]
        push_cast
        ring
      · simp [he, hn]

variable (hs : Subscribed webhooks webhook groupId)
include hs

-- An event is delivered to the endpoint at most once.
theorem Subscribed.count {eventType : WebhookEventType} {g : String} {payload : EventPayload} {now : Time}
    (hw : s.webhooks = webhooks) :
    ((s.subscribed eventType g).map fun w => (⟨w.id, eventType, payload, now⟩ : Delivery)).countP
      (·.reports webhook id) =
        if MergepayEvent.reports webhook id ⟨eventType, payload, some g⟩ then 1 else 0 := by
  rw [List.countP_map]
  by_cases he : eventType = .settlementFailed ∧ payload.settlementId = id
  case neg =>
    rw [if_neg (by simp only [MergepayEvent.reports, decide_eq_true_eq]; tauto)]
    refine List.countP_eq_zero.mpr fun w _ h => ?_
    simp only [Function.comp_apply, Delivery.reports, decide_eq_true_eq] at h
    exact he h.2
  case pos =>
    obtain ⟨rfl, rfl⟩ := he
    have hcount := Table.countP_filter_key (k := (·.id)) (p := fun w : Webhook =>
      w.enabled ∧ .settlementFailed ∈ w.events ∧ w.groupId = some g) hs.ids hs.mem
    rw [OutcomeStore.subscribed, hw]
    simp only [hs.enabled, hs.event, true_and, decide_eq_true_eq] at hcount
    simp only [MergepayEvent.reports, true_and, decide_eq_true_eq, eq_comm (a := some g)]
    refine Eq.trans (List.countP_congr fun w _ => ?_) hcount
    simp [Delivery.reports]

theorem queueWebhookEvent_pays {event : MergepayEvent} : Owing D webhooks webhook id groupId
    (queueWebhookEvent i event) (if event.reports webhook id then 1 else 0) 0 := by
  unfold queueWebhookEvent
  split
  case h_1 hg =>
    -- Without a group, there is nobody to be told.
    refine .done (if_neg fun h => ?_)
    simp only [MergepayEvent.reports, decide_eq_true_eq] at h
    rw [h.2.2, hs.group, Option.bind_some, hs.named] at hg
    cases hg
  case h_2 g hg =>
    have hg : event.groupId = some g := by
      obtain ⟨g', hg', hp⟩ := Option.bind_eq_some_iff.mp hg
      unfold present at hp
      split at hp
      · cases hp
      · exact Option.some.inj hp ▸ hg'
    obtain ⟨eventType, payload, _⟩ := event
    subst hg
    refine .bind (call_pays (fun x s found hi hx ha => ?_) fun x s e hx ha => ?_)
    case refine_2 =>
      cases x <;> cases ha
      exact hx.elim
    have hfound : found = s.subscribed eventType g := by
      cases x <;> cases ha
      rfl
    have hcount (now : Time) : (found.map fun w => (⟨w.id, eventType, payload, now⟩ : Delivery)).countP
        (·.reports webhook id) = if MergepayEvent.reports webhook id ⟨eventType, payload, some g⟩ then 1 else 0 :=
      hfound ▸ hs.count hi.1
    split
    case isFalse he =>
      rw [not_not.mp he] at hcount
      have hzero := hcount 0
      rw [List.map_nil, List.countP_nil] at hzero
      exact .done (by exact_mod_cast hzero.symm)
    case isTrue =>
      refine .bind (call_pays (fun x s now _ _ _ => ?_) fun x s e hx ha => ?_)
      case refine_2 =>
        cases x <;> cases ha
        exact hx.elim
      refine statement_pays (fun s _ _ _ _ => ?_) fun x s e hx ha => ?_
      · rw [createDeliveries_surplus, hcount]
        push_cast
        ring
      · cases x <;> cases ha
        exact hx.elim

omit hs in
theorem detach_pays {task : Task} {m : Int} {E : Failure → Int → Prop}
    (hd : ∀ s, LeftToMachine (.commit i [⟨.detach task, .ok ()⟩]) s →
      n = (if task.reports webhook id then 1 else 0) + m) :
    (deliveryAccount D webhooks webhook id groupId).Pays (statement i (.detach task)) (fun _ n => n = m) E n := by
  refine statement_pays (fun s _ _ hc _ => ?_) fun x s e hx ha => ?_
  · rw [detach_surplus, hd s hc]
    ring
  · cases x <;> cases ha
    exact hx.elim

omit hs in
theorem notifySettlementTransition_pays {settlementId : String} {next : SettlementStatus} :
    Owing D webhooks webhook id groupId (notifySettlementTransition i settlementId next)
      (if settlementId = id ∧ next = .failed then 1 else 0) 0 := by
  unfold notifySettlementTransition
  split
  case h_1 he =>
    refine .done (if_neg fun h => ?_)
    rw [h.2] at he
    cases he
  case h_2 eventType he =>
    refine detach_pays fun _ _ => ?_
    cases next <;> cases he <;> simp [Task.reports]

omit hs in
theorem transition_pays {params : TransitionParams} :
    Owing D webhooks webhook id groupId (transition i params) 0 0 := by
  refine .bind <| Account.Pays.transaction (fun log v s h _ _ _ => ?_) (fun _ _ _ _ => rfl) fun _ _ _ _ => rfl
  obtain ⟨settlement, rest, rfl, hr⟩ := applySettlementTransition_done h
  have hsurplus : 0 + ((deliveryAccount D webhooks webhook id groupId).balance s -
      (deliveryAccount D webhooks webhook id groupId).balance ((outcomeDatabase D).view
        (⟨.findSettlement params.settlementId, .ok (some settlement)⟩ :: rest) s)) =
      if v.changed ∧ params.settlementId = id ∧ params.nextStatus = .failed then 1 else 0 := by
    rw [zero_add, sub_eq_iff_eq_add']
    have h : s.surplus webhook id = ((outcomeDatabase D).view rest s).surplus webhook id + _ :=
      transition_surplus hr
    exact h
  rw [hsurplus]
  simp only [Prog.bind_eq]
  split
  case isTrue hv =>
    simp only [hv, true_and]
    exact .bind <| notifySettlementTransition_pays.mono (fun _ _ hn => .done hn) fun _ _ hn => hn
  case isFalse hv =>
    rw [if_neg fun h => hv h.1]
    exact .done rfl

theorem announce_pays {settlementId : String} {eventType : WebhookEventType} :
    Owing D webhooks webhook id groupId (announce i settlementId eventType)
      (if Task.reports webhook id (.notify settlementId eventType) then 1 else 0) 0 := by
  refine .bind (call_pays (fun x s found hi hx ha => ?_) fun x s e hx ha => ?_)
  case refine_2 =>
    cases x <;> cases ha
    exact hx.elim
  have hfound : found = s.settlement settlementId := by
    cases x <;> cases ha
    rfl
  obtain ⟨_, row', hrow', hg⟩ := hi
  split
  case h_1 =>
    refine .done (if_neg fun h => ?_)
    simp only [Task.reports, decide_eq_true_eq] at h
    rw [h.1, hrow'] at hfound
    cases hfound
  case h_2 row =>
    have hid : row.id = settlementId := Table.key_of_row? hfound.symm
    have heq : Task.reports webhook id (.notify settlementId eventType) =
        MergepayEvent.reports webhook id ⟨eventType, .announced row, some row.groupId⟩ := by
      simp only [Task.reports, MergepayEvent.reports, EventPayload.settlementId, hid, hs.group,
        Option.some.injEq, decide_eq_decide]
      constructor
      case mp =>
        rintro ⟨rfl, he⟩
        cases hfound.trans hrow'
        exact ⟨he, rfl, hg⟩
      case mpr =>
        rintro ⟨he, h, _⟩
        exact ⟨h, he⟩
    rw [heq]
    refine .bind (statement_pays (fun s _ _ _ _ => ?_) fun x s e hx ha => ?_)
    · rw [show (outcomeEffect (.emit _) s).surplus webhook id = s.surplus webhook id from rfl, sub_self,
        add_zero]
      exact queueWebhookEvent_pays hs
    · cases x <;> cases ha
      exact hx.elim

theorem runTask_pays {task : Task} : Owing D webhooks webhook id groupId (runTask i task) 0 0 := by
  refine .bind (statement_pays (fun s _ _ _ ha => ?_) fun _ _ _ _ _ => rfl)
  have ha : task ∈ s.tasks := of_decide_eq_true ha
  rw [take_surplus ha, zero_add, add_sub_cancel_left]
  cases task with
  | notify settlementId eventType => exact .swallow (announce_pays hs)
  | dispatch event                => exact .swallow (queueWebhookEvent_pays hs)

omit hs in
theorem audit_pays {row : OutcomeAudit} (hr : ∀ id, row.change id = none) :
    Owing D webhooks webhook id groupId (audit i row) n n := by
  refine .swallow (aside_pays fun s => ?_)
  simp [OutcomeStore.surplus, OutcomeStore.failures, OutcomeStore.changes, outcomeEffect, hr id]
  rfl

-- Reconciliation publishes nothing but confirmations.
omit hs in
theorem publication_pays {params : TransitionParams} {row : OutcomeAudit} {event : MergepayEvent}
    (hr : ∀ id, row.change id = none) : Owing D webhooks webhook id groupId (do
      let _ ← transition i params
      audit i row
      dispatchEvent i event) 0 0 := by
  refine .bind <| transition_pays.mono (fun _ n hn => ?_) fun _ _ hn => hn
  subst hn
  refine .bind <| (audit_pays hr).mono (fun _ n hn => ?_) fun _ _ hn => hn
  subst hn
  refine detach_pays fun s hc => ?_
  have hne : event.eventType ≠ .settlementFailed := hc _ List.mem_cons_self
  simp [Task.reports, MergepayEvent.reports, hne]

variable {settlement : ReconcilableSettlement} {maxRetries : Nat}

omit hs in
theorem handleTransactionNotFound_pays {hash : String} : Owing D webhooks webhook id groupId
    (handleTransactionNotFound i settlement D hash maxRetries) 0 0 := by
  refine .bind (call_pays (fun _ _ _ _ _ _ => ?_) fun _ _ _ _ _ => rfl)
  split
  case isTrue => exact .bind <| transition_pays.mono (fun _ _ hn => .done hn) fun _ _ hn => hn
  case isFalse =>
    split
    case isTrue =>
      refine .bind <| transition_pays.mono (fun _ n hn => ?_) fun _ _ hn => hn
      subst hn
      exact audit_pays fun id => by simp [OutcomeAudit.change, reconciliationAudit]
    case isFalse =>
      exact .bind <| (aside_pays fun _ => rfl).mono (fun _ _ hn => .done hn) fun _ _ hn => hn

omit hs in
theorem reconcileSingleSettlement_pays : Owing D webhooks webhook id groupId
    (reconcileSingleSettlement i settlement D maxRetries) 0 0 := by
  have audited {action : String} {metadata : AuditMetadata} (h : action ≠ "settlement.status_changed") (id) :
      (reconciliationAudit settlement action metadata).change id = none := by
    simp [OutcomeAudit.change, reconciliationAudit, h]
  unfold reconcileSingleSettlement
  split
  case h_1 => exact .done rfl
  case h_2 hash _ =>
    refine .bind <| observe_pays.mono (fun found n hn => ?_) fun _ _ hn => hn
    subst hn
    split
    case h_1 => exact handleTransactionNotFound_pays
    case h_2 =>
      refine .bind <| .attempt <| observe_pays.mono (fun verified n hn => ?_) fun e n hn => ?_
      · subst hn
        exact publication_pays (audited (by decide))
      · subst hn
        simp only
        split
        case isTrue  => exact publication_pays (audited (by decide))
        case isFalse => exact .fail rfl
    case h_3 => exact publication_pays (audited (by decide))

theorem outcomeRequest_clears (i : OutcomeRequest) :
    (deliveryAccount D webhooks webhook id groupId).Clears (outcomeRequest D i) 0 := by
  cases i with
  | transition params => exact .bind <| transition_pays.mono (fun _ _ hn => .done hn) fun _ _ hn => hn
  | reconcile         => exact reconcileSingleSettlement_pays
  | task              => exact runTask_pays hs

-- Once everything has come to an end, there is one more delivery for each failure since the beginning.
theorem deliveries_of_failures {c : OutcomeConfig} (hi : Fixed webhooks id groupId s) (ht : s.tasks = [])
    (r : (outcomeServer D).Undisturbed OutcomeChoice.answered LeftToMachine ⟨s, []⟩ c)
    (he : ∀ p ∈ c.procs, ∀ a k, p ≠ .call a k) (ht' : c.shared.tasks = []) :
    c.shared.reported webhook id + s.failures id = s.reported webhook id + c.shared.failures id := by
  have h : c.shared.surplus webhook id = s.surplus webhook id :=
    (Account.owes_run (A := deliveryAccount D webhooks webhook id groupId) (outcomeRequest_clears hs) hi r).cleared he
  simp only [OutcomeStore.surplus, OutcomeStore.pending, ht, ht', List.countP_nil] at h
  omega

end

end Mergepay.Outcomes
