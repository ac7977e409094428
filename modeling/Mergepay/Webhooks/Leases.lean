import Mergepay.Concurrency.Chronicle
import Mergepay.Webhooks.Queue

namespace Mergepay.Webhooks

open Concurrency Chronicle

-- What a worker has written when it claimed a delivery.
structure Lease where
  id       : String
  attempts : Nat
  deadline : Time

-- The lease that each worker has written last, unless it has given it back.
abbrev Leases := String → Option Lease

namespace Leases

def set (g : Leases) (workerId : String) (l : Option Lease) : Leases :=
  fun k => if k = workerId then l else g k

theorem set_self {g : Leases} : g.set k l k = l :=
  if_pos rfl

theorem set_of_ne {g : Leases} (h : j ≠ k) : g.set k l j = g j :=
  if_neg h

-- The worker holds a lease on the delivery that has not lapsed.
def Holds (g : Leases) (workerId id : String) (now : Time) : Prop :=
  ∃ l ∈ g workerId, l.id = id ∧ now < l.deadline

instance {k id : String} (g : Leases) : Decidable (g.Holds k id now) :=
  match h : g k with
  | none   => isFalse fun ⟨_, hl, _⟩ => by cases h.symm.trans hl
  | some l => decidable_of_iff (l.id = id ∧ now < l.deadline)
    ⟨fun hl => ⟨l, h, hl⟩, fun ⟨_, hl, h'⟩ => by cases h.symm.trans hl; exact h'⟩

end Leases

def QueueChoice.written : QueueChoice → Bool
  | done | unacknowledged _ => true
  | failed _ | received _   => false

-- What is remembered of a step.
def leased (workerId : String) (a : QueueAction) (x : QueueChoice) (s : Queue) (g : Leases) : Leases :=
  match a with
  | .claim id attempts _ now leaseExpiresAt =>
    if x.written ∧ s.deliveries.any (·.claimable id attempts now)
    then g.set workerId (some ⟨id, attempts, leaseExpiresAt⟩)
    else g
  | .conclude _ _ => if x.written then g.set workerId none else g
  | _             => g

-- Requests are sent, and outcomes are recorded, before the lease has lapsed. A delivery to an endpoint that
-- is disabled is only given up if it could be claimed at that time.
def Timely (workerId : String) (a : QueueAction) (s : Queue) (g : Leases) : Prop :=
  match a with
  | .fetch id _ | .conclude id _ => g.Holds workerId id s.now
  | .disable id                  => ∀ row ∈ s.delivery id, row.free s.now = true
  | _                            => True

instance (k : String) (a : QueueAction) (s : Queue) (g : Leases) : Decidable (Timely k a s g) :=
  match a with
  | .fetch id _ | .conclude id _ => inferInstanceAs (Decidable (g.Holds k id s.now))
  | .disable id                  => inferInstanceAs (Decidable (∀ row ∈ s.delivery id, row.free s.now = true))
  | .clock | .findDue _ _ | .claim .. => inferInstanceAs (Decidable True)

section

variable (C : WebhookConfig)

-- The cycles of one worker follow each other.
def drained : Chronicle (server C) Leases where
  record  := leased
  permits := fun _ _ _ _ => True
  starts  := fun _ => True
  rival   := (· = ·)
  symm    := fun _ _ => Eq.symm

def timely : Chronicle (server C) Leases :=
  { drained C with permits := Timely }

def WebhookDelivery.Bounded (row : WebhookDelivery) : Prop :=
  row.attempts ≤ C.maxAttempts ∧ (row.status = .pending → row.attempts < C.maxAttempts)

-- What holds of the table no matter when the steps are made.
structure Queue.Sound (s : Queue) : Prop where
  unique  : (s.deliveries.map (·.id)).Nodup
  issued  : ∀ row ∈ s.deliveries, row.id ∈ s.ids
  bounded : ∀ row ∈ s.deliveries, row.Bounded C

-- A row that is still under the lease of a worker.
structure Lease.Covers (l : Lease) (workerId : String) (row : WebhookDelivery) : Prop where
  status         : row.status = .pending
  attempts       : row.attempts = l.attempts
  claimedBy      : row.claimedBy = some workerId
  leaseExpiresAt : row.leaseExpiresAt = some l.deadline

structure Owned (s : Queue × Leases) : Prop where
  sound  : s.1.Sound C
  issued : ∀ k l, s.2 k = some l → l.id ∈ s.1.ids
  covers : ∀ k l, s.2 k = some l → s.1.now < l.deadline → ∀ row, s.1.delivery l.id = some row → l.Covers k row

end

-- What becomes of a delivery in the course of time.
structure WebhookDelivery.Advances (row row' : WebhookDelivery) : Prop where
  status   : row.status ≠ .pending → row'.status = row.status
  attempts : row.attempts ≤ row'.attempts

def Queue.Advances (s s' : Queue) : Prop :=
  ∀ id row row', s.delivery id = some row → s'.delivery id = some row' → row.Advances row'

section Rows

variable {C : WebhookConfig} {s t : Queue} {g g' : Leases} {p : WebhookDelivery → Bool}
  {f : WebhookDelivery → WebhookDelivery} {row : WebhookDelivery} {id k : String}

theorem WebhookDelivery.Advances.refl (row : WebhookDelivery) : row.Advances row :=
  ⟨fun _ => rfl, Nat.le_refl _⟩

theorem WebhookDelivery.free_iff {now : Time} :
    row.free now = true ↔ row.status = .pending ∧ ∀ d, row.leaseExpiresAt = some d → d ≤ now := by
  simp only [free, decide_eq_true_eq, Option.all_eq_true]

theorem WebhookDelivery.claimable_iff {attempts : Nat} {now : Time} :
    row.claimable id attempts now = true ↔ row.id = id ∧ row.attempts = attempts ∧ row.free now = true := by
  simp [claimable]

-- A delivery under a lease that has not lapsed is not free.
theorem Lease.Covers.not_free {l : Lease} {now : Time} (h : l.Covers k row) (hn : s.now < l.deadline)
    (ht : now ≤ s.now) : row.free now = false := by
  refine Bool.eq_false_iff.mpr fun hf => ?_
  have hd : l.deadline ≤ now := (WebhookDelivery.free_iff.mp hf).2 _ h.leaseExpiresAt
  exact Int.not_le.mpr hn (hd.trans ht)

namespace Queue

theorem delivery_rewrite (hf : ∀ row, (f row).id = row.id) (id : String) :
    (s.rewrite p f).delivery id = (s.delivery id).map fun row => if p row then f row else row :=
  Table.row?_update hf id

theorem Sound.delivery_of_mem (h : s.Sound C) (hr : row ∈ s.deliveries) : s.delivery row.id = some row :=
  Table.row?_of_mem h.unique hr

theorem Sound.rewrite (h : s.Sound C) (hf : ∀ row, (f row).id = row.id)
    (hb : ∀ row ∈ s.deliveries, p row = true → (f row).Bounded C) : (s.rewrite p f).Sound C where
  unique := by
    rw [Queue.rewrite, Table.map_update hf]
    exact h.unique
  issued row hr := by
    have ⟨row', hr', he⟩ := Table.mem_update.mp hr
    subst he
    split
    · exact hf row' ▸ h.issued row' hr'
    · exact h.issued row' hr'
  bounded row hr := by
    have ⟨row', hr', he⟩ := Table.mem_update.mp hr
    subst he
    split
    case isTrue hp => exact hb row' hr' hp
    case isFalse   => exact h.bounded row' hr'

theorem rewrite_eq_self (h : s.deliveries.any p = false) : s.rewrite p f = s := by
  have hf : ∀ row ∈ s.deliveries, p row = false := fun row hr => by
    simpa using List.any_eq_false.mp h row hr
  have hu : Table.update p f s.deliveries = s.deliveries :=
    (List.map_congr_left fun row hr => by rw [hf row hr, if_neg Bool.false_ne_true]; rfl).trans s.deliveries.map_id
  rw [rewrite, hu]

theorem updateRow_snd : (updateRow s id f).2 = s.rewrite (·.id = id) f := by
  unfold updateRow
  split
  case isTrue    => rfl
  case isFalse h => exact (rewrite_eq_self (Bool.eq_false_iff.mpr h)).symm

theorem Advances.refl (s : Queue) : s.Advances s := by
  intro id row row' h h'
  cases h.symm.trans h'
  exact .refl row

theorem Advances.rewrite (hf : ∀ row, (f row).id = row.id)
    (ha : ∀ row ∈ s.deliveries, p row = true → row.Advances (f row)) : s.Advances (s.rewrite p f) := by
  intro id row row' h h'
  rw [delivery_rewrite hf, h] at h'
  cases h'
  dsimp only
  split
  case isTrue hp => exact ha row (Table.mem_of_row? h) hp
  case isFalse   => exact .refl row

theorem Sound.env (h : s.Sound C) (he : Webhooks.env e s = some t) : t.Sound C := by
  cases e <;> simp only [Webhooks.env, Option.some.injEq] at he
  case tick | register | setEnabled => exact he ▸ ⟨h.unique, h.issued, h.bounded⟩
  case remove =>
    subst he
    exact ⟨h.unique.sublist (List.filter_sublist.map _), fun row hr => h.issued row (List.mem_of_mem_filter hr),
      fun row hr => h.bounded row (List.mem_of_mem_filter hr)⟩
  case enqueue id webhookId eventType payload now =>
    split at he
    case isTrue => contradiction
    case isFalse hn =>
      cases he
      have hn : id ∉ s.ids := fun hi => hn (.inl hi)
      have hn : id ∉ s.deliveries.map (·.id) := fun hi => by
        have ⟨row, hr, he⟩ := List.mem_map.mp hi
        exact hn (he ▸ h.issued row hr)
      refine ⟨?_, fun row hr => ?_, fun row hr => ?_⟩
      case refine_1 =>
        rw [List.map_append, List.map_singleton, ← List.concat_eq_append]
        exact (List.nodup_concat ..).mpr ⟨hn, h.unique⟩
      all_goals rcases List.mem_append.mp hr with hr | hr
      case refine_2.inl => exact List.mem_cons_of_mem _ (h.issued row hr)
      case refine_2.inr => cases List.mem_singleton.mp hr; exact List.mem_cons_self
      case refine_3.inl => exact h.bounded row hr
      case refine_3.inr => cases List.mem_singleton.mp hr; exact ⟨Nat.zero_le _, fun _ => C.maxAttempts_pos⟩

-- Rows are not touched from outside, but they may be removed, and new ones get new ids.
theorem Sound.delivery_of_env (h : s.Sound C) (he : Webhooks.env e s = some t) (hi : id ∈ s.ids)
    (hr : t.delivery id = some row) : s.delivery id = some row := by
  cases e <;> simp only [Webhooks.env, Option.some.injEq] at he
  case tick | register | setEnabled =>
    subst he
    exact hr
  case remove =>
    subst he
    have hid := Table.key_of_row? hr
    exact hid ▸ h.delivery_of_mem (List.mem_of_mem_filter (Table.mem_of_row? hr))
  case enqueue id' webhookId eventType payload now =>
    split at he
    case isTrue => contradiction
    case isFalse hn =>
      cases he
      have hne : id' ≠ id := fun he => hn (.inl (he ▸ hi))
      have hid := Table.key_of_row? hr
      rcases List.mem_append.mp (Table.mem_of_row? hr) with hm | hm
      case inl => exact hid ▸ h.delivery_of_mem hm
      case inr => cases List.mem_singleton.mp hm; exact (hne hid).elim

theorem Sound.mem_ids (h : s.Sound C) (hr : s.delivery id = some row) : id ∈ s.ids :=
  Table.key_of_row? hr ▸ h.issued row (Table.mem_of_row? hr)

theorem Sound.advances_env (h : s.Sound C) (he : Webhooks.env e s = some t) : s.Advances t := by
  intro id row row' hr hr'
  cases hr.symm.trans (h.delivery_of_env he (h.mem_ids hr) hr')
  exact .refl row

theorem env_now (he : Webhooks.env e s = some t) : s.now ≤ t.now ∧ ∀ id ∈ s.ids, id ∈ t.ids := by
  cases e <;> simp only [Webhooks.env, Option.some.injEq] at he
  case tick ms =>
    subst he
    exact ⟨Int.le_add_of_nonneg_right (Int.natCast_nonneg ms), fun _ h => h⟩
  case register | setEnabled | remove =>
    subst he
    exact ⟨Int.le_refl _, fun _ h => h⟩
  case enqueue =>
    split at he
    case isTrue => contradiction
    case isFalse =>
      cases he
      exact ⟨Int.le_refl _, fun _ h => List.mem_cons_of_mem _ h⟩

end Queue

theorem Owned.env (h : Owned C (s, g)) (he : Webhooks.env e s = some t) : Owned C (t, g) where
  sound      := h.sound.env he
  issued k l hl := (Queue.env_now he).2 _ (h.issued k l hl)
  covers k l hl hn row hr := by
    exact h.covers k l hl (Int.lt_of_le_of_lt (Queue.env_now he).1 hn) row <|
      h.sound.delivery_of_env he (h.issued k l hl) hr

theorem Owned.rewrite (h : Owned C (s, g)) (hf : ∀ row, (f row).id = row.id)
    (hb : ∀ row ∈ s.deliveries, p row = true → (f row).Bounded C)
    (hl : ∀ k l, g' k = some l → l.id ∈ s.ids ∧ (s.now < l.deadline → ∀ row, s.delivery l.id = some row →
      l.Covers k (if p row then f row else row))) : Owned C (s.rewrite p f, g') where
  sound      := h.sound.rewrite hf hb
  issued k l h' := (hl k l h').1
  covers k l h' hn row hr := by
    rw [Queue.delivery_rewrite hf] at hr
    have ⟨row', hr', he⟩ := Option.map_eq_some_iff.mp hr
    exact he ▸ (hl k l h').2 hn row' hr'

end Rows

-- A step of a process. Others keep their leases, and deliveries advance.
structure Progresses (k : String) (s s' : Queue × Leases) : Prop where
  now      : s.1.now ≤ s'.1.now
  others   : ∀ j, j ≠ k → s'.2 j = s.2 j
  advances : s.1.Advances s'.1

def leasing (C : WebhookConfig) : Contract (timely C) where
  inv  := Owned C
  rely := fun k s s' => s.1.now ≤ s'.1.now ∧ s'.2 k = s.2 k
  guar := Progresses
  fits := fun h hg => ⟨hg.now, hg.others _ (Ne.symm h)⟩
  env  := fun hi he => ⟨hi.env he, fun _ => ⟨(Queue.env_now he).1, rfl⟩⟩

section Steps

variable {C : WebhookConfig} {s t : Queue} {g : Leases} {k id : String} {a : QueueAction} {x : QueueChoice}
  {r : Except Thrown a.Answer} {data : Outcome}

theorem exec_cases (h : exec a x s = some (r, t)) :
    x.written = true ∧ t = (run a s).2 ∧ (∀ v, r = .ok v → (run a s).1 = .ok v) ∨
    x.written = false ∧ t = s ∧ ∀ v, r = .ok v → ∃ id q, a = .fetch id q := by
  unfold exec at h
  split at h
  case h_1 =>
    cases h
    exact .inr ⟨rfl, rfl, fun _ _ => ⟨_, _, rfl⟩⟩
  case h_4 =>
    have h := Option.some.inj h
    exact .inl ⟨rfl, by rw [h], fun v hv => by rw [h, hv]⟩
  case h_6 e s _ _ =>
    cases h
    exact .inr ⟨rfl, rfl, fun _ h => by cases h⟩
  case h_7 e s _ _ =>
    cases h
    exact .inl ⟨rfl, rfl, fun _ h => by cases h⟩
  all_goals contradiction

-- What is recorded of an attempt that has been made under a lease.
def Outcome.Follows (C : WebhookConfig) (attempts : Nat) (data : Outcome) : Prop :=
  data.attempts = attempts + 1 ∧ (data.status = .pending → data.attempts < C.maxAttempts)

-- What is known to a worker when it takes an action.
def Fitting (C : WebhookConfig) (k : String) (a : QueueAction) (s : Queue × Leases) : Prop :=
  match a with
  | .claim _ _ workerId now _ => workerId = k ∧ now ≤ s.1.now
  | .conclude id data         => ∀ l ∈ s.2 k, l.id = id → data.Follows C l.attempts
  | _                         => True

theorem Progresses.same (s : Queue × Leases) : Progresses k s s :=
  ⟨Int.le_refl _, fun _ _ => rfl, .refl _⟩

-- The delivery that is claimed comes under the lease. It has not been under the lease of another worker.
theorem Owned.claim {attempts : Nat} {now deadline : Time} (h : Owned C (s, g)) (hn : now ≤ s.now)
    (hp : s.deliveries.any (·.claimable id attempts now) = true) : Owned C
      (s.rewrite (·.claimable id attempts now) (·.claim k deadline), g.set k (some ⟨id, attempts, deadline⟩)) := by
  refine h.rewrite (fun _ => rfl) (fun row hr _ => h.sound.bounded row hr) fun j l hl => ?_
  by_cases hj : j = k
  case pos =>
    subst hj
    cases Leases.set_self.symm.trans hl
    have ⟨row, hm, hc⟩ := List.any_eq_true.mp hp
    have hid := (WebhookDelivery.claimable_iff.mp hc).1
    refine ⟨hid ▸ h.sound.issued row hm, fun _ row' hr => ?_⟩
    cases (hid ▸ h.sound.delivery_of_mem hm).symm.trans hr
    have ⟨_, ha, hf⟩ := WebhookDelivery.claimable_iff.mp hc
    rw [if_pos hc]
    exact ⟨(WebhookDelivery.free_iff.mp hf).1, ha, rfl, rfl⟩
  case neg =>
    rw [Leases.set_of_ne hj] at hl
    refine ⟨h.issued j l hl, fun hlt row hr => ?_⟩
    have hc := h.covers j l hl hlt row hr
    have hf : row.claimable id attempts now = false := by
      refine Bool.eq_false_iff.mpr fun hp => ?_
      exact Bool.eq_false_iff.mp (hc.not_free hlt hn) (WebhookDelivery.claimable_iff.mp hp).2.2
    rw [hf, if_neg Bool.false_ne_true]
    exact hc

-- The only worker that has the delivery under its lease gives it back.
theorem Owned.conclude (h : Owned C (s, g)) (hh : g.Holds k id s.now) (hd : ∀ l ∈ g k, l.id = id → data.Follows C l.attempts) :
    Owned C (s.rewrite (·.id = id) (·.conclude data), g.set k none) ∧
      s.Advances (s.rewrite (·.id = id) (·.conclude data)) := by
  have ⟨l, hl, hid, hlt⟩ := hh
  have covers {row} (hr : row ∈ s.deliveries) (hp : decide (row.id = id) = true) : l.Covers k row :=
    h.covers k l hl hlt row <| (hid.trans (of_decide_eq_true hp).symm) ▸ h.sound.delivery_of_mem hr
  have ⟨ha, hb⟩ := hd l hl hid
  refine ⟨h.rewrite (fun _ => rfl) (fun row hr hp => ?_) fun j l' hl' => ?_, .rewrite (fun _ => rfl) fun row hr hp => ?_⟩
  case refine_1 =>
    have hc := covers hr hp
    have := (h.sound.bounded row hr).2 hc.status
    rw [hc.attempts] at this
    exact ⟨ha.trans_le this, hb⟩
  case refine_2 =>
    by_cases hj : j = k
    case pos =>
      subst hj
      cases Leases.set_self.symm.trans hl'
    case neg =>
      rw [Leases.set_of_ne hj] at hl'
      refine ⟨h.issued j l' hl', fun hlt' row hr => ?_⟩
      have hc := h.covers j l' hl' hlt' row hr
      have hne : ¬decide (row.id = id) = true := fun hp =>
        hj <| Option.some.inj <| hc.claimedBy.symm.trans (covers (Table.mem_of_row? hr) hp).claimedBy
      rw [if_neg hne]
      exact hc
  case refine_3 =>
    have hc := covers hr hp
    exact ⟨fun hs => (hs hc.status).elim, (hc.attempts.trans_le (Nat.le_succ _)).trans_eq ha.symm⟩

-- No worker has the delivery under its lease.
theorem Owned.disable (h : Owned C (s, g)) (hf : ∀ row ∈ s.delivery id, row.free s.now = true) :
    Owned C (s.rewrite (·.id = id) (·.disable), g) ∧ s.Advances (s.rewrite (·.id = id) (·.disable)) := by
  have free {row} (hr : row ∈ s.deliveries) (hp : decide (row.id = id) = true) : row.free s.now = true :=
    hf row <| of_decide_eq_true hp ▸ h.sound.delivery_of_mem hr
  refine ⟨h.rewrite (fun _ => rfl) (fun row hr _ => ?_) fun j l hl => ?_, .rewrite (fun _ => rfl) fun row hr hp => ?_⟩
  case refine_1 => exact ⟨(h.sound.bounded row hr).1, nofun⟩
  case refine_2 =>
    refine ⟨h.issued j l hl, fun hlt row hr => ?_⟩
    have hc := h.covers j l hl hlt row hr
    have hne : ¬decide (row.id = id) = true := fun hp =>
      Bool.eq_false_iff.mp (hc.not_free hlt (Int.le_refl _)) <| free (Table.mem_of_row? hr) hp
    rw [if_neg hne]
    exact hc
  case refine_3 => exact ⟨fun hs => (hs (WebhookDelivery.free_iff.mp (free hr hp)).1).elim, Nat.le_refl _⟩

theorem Owned.step (h : Owned C (s, g)) (hp : Timely k a s g) (hf : Fitting C k a (s, g))
    (hx : exec a x s = some (r, t)) :
    Owned C (t, leased k a x s g) ∧ Progresses k (s, g) (t, leased k a x s g) := by
  rcases exec_cases hx with ⟨hw, rfl, _⟩ | ⟨hw, rfl, _⟩
  case inr =>
    have hl : leased k a x t g = g := by
      cases a <;> simp [leased, hw]
    rw [hl]
    exact ⟨h, .same _⟩
  case inl =>
    cases a with
    | clock | findDue | fetch => exact ⟨h, .same _⟩
    | claim id attempts workerId now deadline =>
      obtain ⟨rfl, hn⟩ := hf
      simp only [run, leased, hw, true_and]
      split
      case isTrue ha =>
        refine ⟨h.claim hn ha, Int.le_refl _, fun j hj => Leases.set_of_ne hj, ?_⟩
        exact .rewrite (fun _ => rfl) fun row _ _ => ⟨fun _ => rfl, Nat.le_refl _⟩
      case isFalse ha =>
        rw [Queue.rewrite_eq_self (Bool.eq_false_iff.mpr ha)]
        exact ⟨h, .same _⟩
    | disable id =>
      simp only [run, leased, Queue.updateRow_snd]
      have ⟨ho, ha⟩ := h.disable hp
      exact ⟨ho, Int.le_refl _, fun _ _ => rfl, ha⟩
    | conclude id data =>
      simp only [run, leased, Queue.updateRow_snd, hw, if_true]
      have ⟨ho, ha⟩ := h.conclude hp hf
      exact ⟨ho, Int.le_refl _, fun j hj => Leases.set_of_ne hj, ha⟩

end Steps

section Programs

variable {C : WebhookConfig} {k id : String} {attempts : Nat} {s : Queue × Leases} {row : WebhookDelivery}
  {webhook : WebhookRecord}

abbrev Secures (C : WebhookConfig) (k : String) (p : M α) (Q : α → Queue × Leases → Prop) (s : Queue × Leases) : Prop :=
  (leasing C).Secure k p Q (fun _ _ => True) s

theorem secure_act {a : QueueAction} {F : Queue × Leases → Prop} {Q : a.Answer → Queue × Leases → Prop}
    (hs : (leasing C).Stable k F) (hf : F s) (ha : ∀ s, F s → Fitting C k a s)
    (h : ∀ s t g x v, F (s, g) → exec a x s = some (.ok v, t) → Q v (t, leased k a x s g)) :
    Secures C k (act a) Q s := by
  refine .perform hs hf fun s₁ hf hi hp x r t hx => ?_
  have ⟨ho, hg⟩ := Owned.step hi hp (ha s₁ hf) hx
  exact ⟨ho, hg, fun v hv => h _ _ _ _ v hf (hv ▸ hx), fun _ _ => trivial⟩

theorem true_stable : (leasing C).Stable k fun _ => True :=
  fun _ _ _ _ => trivial

-- The lease of a worker is not changed by others.
theorem lease_stable {l : Lease} : (leasing C).Stable k fun s => s.2 k = some l :=
  fun _ _ hr h => hr.2.trans h

theorem since_stable {now : Time} : (leasing C).Stable k fun s => now ≤ s.1.now :=
  fun _ _ hr h => h.trans hr.1

theorem secure_clock {F : Queue × Leases → Prop} (hs : (leasing C).Stable k F) (hf : F s) :
    Secures C k (act .clock) (fun now s => F s ∧ now ≤ s.1.now) s := by
  refine secure_act hs hf (fun _ _ => trivial) fun s t g x v hf hx => ?_
  cases x <;> cases hx
  exact ⟨hf, Int.le_refl _⟩

-- The worker keeps its lease, whether the call succeeds or not.
theorem secure_fetch {l : Lease} (hl : s.2 k = some l) : (leasing C).Secure k (act (.fetch id q))
    (fun _ s => s.2 k = some l) (fun _ s => s.2 k = some l) s := by
  refine .perform lease_stable hl fun s₁ hl hi hp x r t hx => ?_
  have ⟨ho, hg⟩ := Owned.step (a := .fetch id q) hi hp trivial hx
  exact ⟨ho, hg, fun _ _ => hl, fun _ _ => hl⟩

theorem secure_claimDelivery : Secures C k (claimDelivery C k id attempts)
    (fun b s => b = true → ∃ deadline, s.2 k = some ⟨id, attempts, deadline⟩) s := by
  refine .bind <| (secure_clock true_stable trivial).mono (fun now s ⟨_, hn⟩ => ?_) fun _ _ h => h
  refine .bind <| secure_act since_stable hn (fun _ hn => ⟨rfl, hn⟩) fun s t g x count _ hx hc => ?_
  rcases exec_cases hx with ⟨hw, _, hv⟩ | ⟨_, _, hv⟩
  case inl =>
    have hcount : s.deliveries.countP (·.claimable id attempts now) = 1 :=
      (Except.ok.inj (hv count rfl)).trans (of_decide_eq_true hc)
    have ha : s.deliveries.any (·.claimable id attempts now) = true :=
      List.any_eq_true.mpr <| List.countP_pos_iff.mp (hcount ▸ Nat.one_pos)
    exact ⟨_, (congrFun (if_pos ⟨hw, ha⟩) k).trans Leases.set_self⟩
  case inr =>
    have ⟨_, _, h⟩ := hv count rfl
    cases h

theorem outcomeOf_pending (h : (outcomeOf C attempts response).1 = .pending) : attempts < C.maxAttempts := by
  have undelivered {b : WebhookDeliveryStatus} (hb : (if attempts ≥ C.maxAttempts then .failed else b) = .pending) :
      attempts < C.maxAttempts := by
    split at hb
    case isTrue    => cases hb
    case isFalse h => exact Nat.lt_of_not_ge h
  simp only [outcomeOf] at h
  split at h
  case h_1 => exact undelivered h
  case h_2 =>
    split at h
    case h_1 => exact undelivered h
    case h_2 =>
      dsimp only at h
      split at h
      case isTrue  => cases h
      case isFalse => exact undelivered h

theorem secure_retryTime {l : Lease} (hl : s.2 k = some l) :
    Secures C k (retryTime C status attempts) (fun _ s => s.2 k = some l) s := by
  unfold retryTime
  split
  case isTrue  => exact hl
  case isFalse => exact .bind <| (secure_clock lease_stable hl).mono (fun _ _ h => h.1) fun _ _ h => h

-- The outcome is recorded for the attempt for which the delivery has been claimed.
theorem secure_recordOutcome (hl : s.2 k = some ⟨row.id, row.attempts, deadline⟩) :
    Secures C k (recordOutcome C row response) (fun _ _ => True) s := by
  refine .bind <| (secure_clock lease_stable hl).mono (fun lastAttemptAt s h => ?_) fun _ _ h => h
  refine .bind <| (secure_retryTime h.1).mono (fun nextAttemptAt s hl => ?_) fun _ _ h => h
  refine .bind <| secure_act lease_stable hl (fun s hl l hl' _ => ?_) fun _ _ _ _ _ _ _ => trivial
  cases hl.symm.trans hl'
  exact ⟨rfl, outcomeOf_pending⟩

theorem secure_attemptDelivery (hl : s.2 k = some ⟨row.id, row.attempts, deadline⟩) :
    Secures C k (attemptDelivery C row webhook) (fun _ _ => True) s :=
  .bind <| .attempt <| (secure_fetch hl).mono (fun _ _ hl => secure_recordOutcome hl)
    fun _ _ hl => secure_recordOutcome hl

theorem secure_deliverAll (rows : List (WebhookDelivery × WebhookRecord)) (counts : Counts) :
    Secures C k (deliverAll C k rows counts) (fun _ _ => True) s := by
  induction rows generalizing counts s with
  | nil => trivial
  | cons r rows hi =>
    obtain ⟨row, webhook⟩ := r
    unfold deliverAll
    simp only [Prog.bind_eq]
    split
    case isTrue =>
      exact .bind <| secure_act true_stable trivial (fun _ _ => trivial) fun _ _ _ _ _ _ _ => hi _
    case isFalse =>
      refine .bind <| secure_claimDelivery.mono (fun b s hb => ?_) fun _ _ h => h
      cases b with
      | false => exact hi _
      | true =>
        have ⟨deadline, hl⟩ := hb rfl
        exact .bind <| (secure_attemptDelivery hl).mono (fun _ _ _ => hi _) fun _ _ h => h

theorem entry_fine (k : String) (s : Queue × Leases) : (leasing C).Fine k ((server C).entry k) s := by
  refine .bind <| .bind <| (secure_clock true_stable trivial).mono (fun now s _ => ?_) fun _ _ h => h
  refine .bind <| secure_act true_stable trivial (fun _ _ => trivial) fun _ _ _ _ rows _ _ => ?_
  exact (secure_deliverAll rows {}).mono (fun _ _ _ => trivial) fun _ _ h => h

end Programs

end Mergepay.Webhooks
