import Mergepay.Webhooks.Leases

namespace Mergepay.Webhooks

open Concurrency Chronicle

abbrev Moment := Scene Queue Leases QueueAction QueueAction.Answer Thrown String

-- The process is about to send a delivery.
def Sends (s : Moment) (n : Nat) (id : String) : Prop :=
  ∃ q, s.config.procs[n]?.bind (·.head) = some (.fetch id q)

-- Outcomes are not taken back by a step, and nothing is sent whose outcome is known.
structure Final (C : WebhookConfig) (l : Label QueueChoice QueueEvent String) (s s' : Moment) : Prop where
  advances : s.config.shared.Advances s'.config.shared
  bounded  : ∀ id row, s'.config.shared.delivery id = some row → row.attempts ≤ C.maxAttempts
  pending  : ∀ n x id row, l = .act n x → Sends s n id → s.config.shared.delivery id = some row → row.status = .pending

-- No process is at work yet.
def idle (q : Queue) : Moment :=
  ⟨⟨q, []⟩, [], fun _ => none⟩

section

variable {C : WebhookConfig} {q : Queue} {s s' : Moment} {l : Label QueueChoice QueueEvent String}
  {id : String}

theorem kept_of_run (hq : q.Sound C) (r : (timely C).Run (idle q) s) : (leasing C).Kept s := by
  have hi : (leasing C).inv (q, fun _ => none) := ⟨hq, nofun, nofun⟩
  exact (Contract.Kept.init hi).run (fun k s _ _ => entry_fine k s) r

theorem pending_of_sends (h : (leasing C).Kept s) (m : (timely C).Admits (.act n x) s) (hn : Sends s n id)
    (hr : s.config.shared.delivery id = some row) : row.status = .pending := by
  have ⟨q, hn⟩ := hn
  have ⟨p, hp, hh⟩ := Option.bind_eq_some_iff.mp hn
  have ⟨c, hc⟩ := Prog.of_head hh
  subst hc
  have hl : n < s.entries.length := h.length ▸ (List.getElem?_eq_some_iff.mp hp).1
  have ⟨lease, hl, hid, hlt⟩ := m s.entries[n] (List.getElem?_eq_getElem hl) _ hp
  exact (h.inv.covers _ lease hl hlt row (hid ▸ hr)).status

theorem delivery_outcomes (hq : q.Sound C) (r : (timely C).Run (idle q) s) (m : (timely C).Admits l s)
    (hn : (timely C).next l s = some s') : Final C l s s' := by
  have hk := kept_of_run hq r
  have ⟨hk', hs⟩ := hk.step (fun k s _ _ => entry_fine k s) m hn
  refine ⟨?_, fun id row hr => ?_, fun n x id row hl hsend hr => ?_⟩
  case refine_1 =>
    rcases hs with hs | ⟨_, _, hg⟩ | ⟨_, he, _⟩
    · have hs : s'.config.shared = s.config.shared := congrArg Prod.fst hs
      exact hs ▸ .refl _
    · exact hg.advances
    · exact hk.inv.sound.advances_env he
  case refine_2 => exact (hk'.inv.sound.bounded row (Table.mem_of_row? hr)).1
  case refine_3 =>
    subst hl
    exact pending_of_sends hk m hsend hr

end

section Sample

instance : DecidablePred (drained C).starts :=
  fun _ => inferInstanceAs (Decidable True)

instance : DecidableRel (drained C).rival :=
  fun _ _ => inferInstanceAs (Decidable (_ = _))

instance (k : String) (a : QueueAction) (s : Queue) (g : Leases) : Decidable ((drained C).permits k a s g) :=
  inferInstanceAs (Decidable True)

instance : DecidablePred (timely C).starts :=
  fun _ => inferInstanceAs (Decidable True)

instance : DecidableRel (timely C).rival :=
  fun _ _ => inferInstanceAs (Decidable (_ = _))

instance (k : String) (a : QueueAction) (s : Queue) (g : Leases) : Decidable ((timely C).permits k a s g) :=
  inferInstanceAs (Decidable (Timely k a s g))

def sampleConfig : WebhookConfig where
  maxAttempts      := 3
  retryBaseDelayMs := 1000
  leaseTimeoutMs   := 60000
  batchSize        := 25
  createSignature  := fun _ _ => "7106d6c832f369ed8ded00daa0a1c78f2a25e292a3bd0fc48ff27c4bd0fc9f5a"
  maxAttempts_pos  := by decide

def sampleQueue : Queue where
  webhooks := [⟨"w", "https://example.com/hook", "secret", true⟩]
  now      := 0

def samplePayload : String :=
  "\x7b\"eventType\":\"settlement.confirmed\",\"data\":\x7b\x7d,\"timestamp\":\"1970-01-01T00:00:00.000Z\"\x7d"

def queued : Label QueueChoice QueueEvent String :=
  .env <| .enqueue "d" "w" "settlement.confirmed" samplePayload 0

-- A worker claims the delivery and sends it.
def sending (n : Nat) (workerId : String) (r : HttpResponse) : List (Label QueueChoice QueueEvent String) :=
  .spawn workerId :: Label.acts n [.done, .done, .done, .done, .received (.ok r)]

def sampleSchedule : List (Label QueueChoice QueueEvent String) :=
  queued :: sending 0 "a" ⟨200, .ok "ok"⟩ ++ [.act 0 .done]

-- While the first call lasts, the lease lapses, and the delivery is made by another worker.
def overtaken : List (Label QueueChoice QueueEvent String) :=
  .flatten [
    queued :: sending 0 "a" ⟨500, .ok "error"⟩, [.env (.tick 61000)], sending 1 "b" ⟨200, .ok "ok"⟩,
    Label.acts 1 [.done, .done], Label.acts 0 [.done, .done]
  ]

def statusOf (s : Moment) : Option WebhookDeliveryStatus :=
  (s.config.shared.delivery "d").map (·.status)

theorem sampleQueue_sound : sampleQueue.Sound sampleConfig where
  unique      := List.nodup_nil
  issued _ h  := absurd h List.not_mem_nil
  bounded _ h := absurd h List.not_mem_nil

-- The delivery is pending again.
theorem outcome_taken_back : ¬∀ (C : WebhookConfig) (q : Queue) (s s' : Moment)
    (l : Label QueueChoice QueueEvent String), q.Sound C → (drained C).Run (idle q) s → (drained C).Admits l s →
      (drained C).next l s = some s' → Final C l s s' := by
  intro h
  have ⟨s, r, hp⟩ := exists_run_of_play (K := drained sampleConfig) (s := idle sampleQueue)
    (p := fun s => statusOf s = some .delivered ∧
      ((drained sampleConfig).next (.act 0 .done) s).any (statusOf · = some .pending)) overtaken (by decide +kernel)
  have ⟨hs, hn⟩ := of_decide_eq_true hp
  have ⟨s', hn, hs'⟩ := (Option.any_eq_true ..).mp hn
  have ⟨row, hr, hst⟩ := Option.map_eq_some_iff.mp hs
  have ⟨row', hr', hst'⟩ := Option.map_eq_some_iff.mp (of_decide_eq_true hs')
  have hm : (drained sampleConfig).Admits (.act 0 .done) s :=
    fun _ _ => Config.meets_of_forall (fun _ _ => trivial) _ _
  have hf := (h _ _ s s' _ sampleQueue_sound r hm hn).advances "d" row row' hr hr'
  have := hf.status (by simp [hst])
  simp [hst, hst'] at this

theorem delivery_outcomes_sample : ∃ s s', (timely sampleConfig).Run (idle sampleQueue) s ∧
    (timely sampleConfig).next (.act 0 .done) s = some s' ∧ statusOf s' = some .delivered ∧
    Final sampleConfig (.act 0 .done) s s' := by
  have ⟨s, r, hp⟩ := exists_run_of_play (K := timely sampleConfig) (s := idle sampleQueue)
    (p := fun s => (timely sampleConfig).Admits (.act 0 .done) s ∧
      ((timely sampleConfig).next (.act 0 .done) s).any (statusOf · = some .delivered)) sampleSchedule (by decide +kernel)
  have ⟨m, hn⟩ := of_decide_eq_true hp
  have ⟨s', hn, hs'⟩ := (Option.any_eq_true ..).mp hn
  exact ⟨s, s', r, hn, of_decide_eq_true hs', delivery_outcomes sampleQueue_sound r m hn⟩

end Sample

end Mergepay.Webhooks
