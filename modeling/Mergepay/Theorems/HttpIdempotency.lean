import Mergepay.Idempotency.Ownership

namespace Mergepay.Idempotency

open Concurrency

-- The handler and the recording belong to a reservation, which is used up by the latter.
def httpSpending : Spending where
  uses   := fun
    | .handle k   => some k
    | .update k _ => some k
    | _           => none
  spends := fun
    | .update _ _ => true
    | _           => false
  spent  := (·.recorded)
  plain  := fun {a} h => by cases a <;> first | exact ⟨rfl, rfl⟩ | cases h
  env    := rfl
  grants := fun {a r} h => by cases a <;> first | (cases r <;> rfl) | cases h
  exec   := fun h => by
    cases h with
    | updated => exact .inr ⟨rfl, _, rfl, rfl⟩
    | _       => exact .inl rfl

theorem idempotentRequest_fair (D : KeyConfig) (i : HttpRequest) :
    httpSpending.tickets.Fair (httpRequest D i) none := by
  have now : ∀ r, KeyAction.granted .now r = none := fun r => by cases r <;> rfl
  cases i with
  | cleanup =>
    refine Spending.plain_bind rfl now fun _ => ?_
    exact (Spending.plain_carries rfl (fun r => by cases r <;> rfl) fun _ _ => trivial).fair
  | request requestHash =>
    have respond (o : Except Failure Response) (h : Option Nat) :
        httpSpending.tickets.Fair (.perform (.respond requestHash o)) h :=
      .perform nofun (fun _ => trivial) fun _ => trivial
    refine .bind <| .attempt <| Spending.reserve_carries.mono (fun reserved h hh => ?_) fun e h _ => ?_
    · cases reserved with
      | replay response => exact respond _ _
      | own attempt =>
        subst hh
        refine .bind <| .perform (fun _ h => h) (fun response => ?_) fun _ => trivial
        refine .bind <| .bind <| .attempt <| .bind <| .perform nofun (fun t => ?_) fun _ => respond _ _
        exact .perform (fun _ h => h) (fun _ => respond _ _) fun _ => respond _ _
    · exact respond _ _

-- A recording is only made as long as the reservation has not been taken over by another request.
def RecordsOwn : KeyAction → KeyStore → Prop
  | .update k _, s => ∀ row ∈ s.row, row.owner = k
  | _, _           => True

instance (a : KeyAction) (s : KeyStore) : Decidable (RecordsOwn a s) := by
  unfold RecordsOwn
  split <;> infer_instance

-- A row is not removed before it expires.
def KeepsRow : KeyAction → KeyStore → Prop
  | .deleteExpired t, s => ∀ row ∈ s.row, t ≤ row.expiresAt
  | _, _                => True

instance (a : KeyAction) (s : KeyStore) : Decidable (KeepsRow a s) := by
  unfold KeepsRow
  split <;> infer_instance

-- The process is executing its handler, and owns the reservation of the key.
def Executing (c : KeyConfiguration) (n : Nat) : Prop :=
  ∃ attempt k row, c.procs[n]? = some (.call (.handle attempt) k) ∧ c.shared.row = some row ∧
    row.owner = attempt

-- A row is only completed by having its outcome recorded.
def KeyStore.Settled (s : KeyStore) : Prop :=
  ∀ row ∈ s.row, row.status = .completed → row.owner ∈ s.recorded

abbrev HttpCond (a : KeyAction) (s : KeyStore) : Prop :=
  RecordsOwn a s ∧ ∀ k ∈ httpSpending.uses a, httpSpending.Valid k s

section

variable {D : KeyConfig} {s s' : KeyStore} {a : KeyAction} {r : Except Failure a.Answer}

theorem KeyStore.Settled.effect (h : s.Settled) (hc : HttpCond a s) (he : KeyEffect s a r s') :
    s'.Settled := by
  cases he with
  | nothing | committed => exact h
  | created | reclaimed =>
    intro row hr hs
    cases hr
    cases hs
  | deleted =>
    intro row hr
    cases hr
  | @updated row k d _ hrow =>
    intro row' hr _
    cases hr
    exact List.mem_append_right _ (List.mem_singleton.mpr (hc.1 row hrow))

-- A stored success is not overwritten, because the recording of its owner has already been used up.
theorem KeyStore.Settled.final {row : KeyRow} (h : s.Settled) (hc : HttpCond a s) (hk : KeepsRow a s)
    (he : KeyEffect s a r s') (hr : s.row = some row) (hs : row.status = .completed) :
    s'.row = some row := by
  cases he with
  | nothing | committed => exact hr
  | created hn => cases hn.symm.trans hr
  | reclaimed hr' hm =>
    cases hr'.symm.trans hr
    have ⟨_, hm⟩ := of_decide_eq_true hm
    simp [hs] at hm
  | deleted hr' ht =>
    cases hr'.symm.trans hr
    exact absurd ht (Int.not_lt.mpr (hk row hr))
  | @updated row' k d _ hr' =>
    cases hr'.symm.trans hr
    have hown : row.owner = k := hc.1 row hr
    exact ((hc.2 k rfl).2 <| hown ▸ h row hr hs).elim

theorem KeyStore.Settled.env {t : Time} (h : s.Settled) (hx : keyEnv t s = some s') :
    s'.Settled ∧ s'.row = s.row := by
  rw [keyEnv_eq hx]
  exact ⟨h, rfl⟩

variable (D) (row : KeyRow)

def settling : Protocol (keySystem (httpRequest D)) where
  cond := HttpCond
  inv  := KeyStore.Settled
  due  := fun _ _ => True
  exec := fun h hc hx => h.effect hc (.of_exec hx)
  env  := fun h hx => (h.env hx).1

-- With a success stored no further handler is executed, and all requests are answered with it. Only a
-- statement that fails by itself may come in between.
def replaying : Protocol (keySystem (httpRequest D)) where
  cond := fun a s => HttpCond a s ∧ KeepsRow a s
  inv  := fun s => s.Settled ∧ row.status = .completed ∧ s.row = some row
  due  := fun a _ => match a with
    | .handle _    => False
    | .respond h o => h = row.requestHash → o = .ok row.response ∨ o = .error World.connectionClosed
    | _            => True
  exec := fun ⟨h, hs, hr⟩ ⟨hc, hk⟩ hx =>
    ⟨h.effect hc (.of_exec hx), hs, h.final hc hk (.of_exec hx) hr hs⟩
  env  := fun ⟨h, hs, hr⟩ hx => ⟨(h.env hx).1, hs, (h.env hx).2.trans hr⟩

variable {D row} {requestHash : String}

theorem reserve_replays :
    (replaying D row).Safe (reserve D requestHash)
      (fun reserved _ => requestHash = row.requestHash ∧ reserved = .replay row.response)
      (fun e _ => requestHash = row.requestHash → e = World.connectionClosed) s := by
  refine .of_call fun s₁ _ hi₁ => ⟨trivial, fun hc x r s₂ hx => ?_⟩
  have hi₂ : (replaying D row).inv s₂ := (replaying D row).exec hi₁ hc hx
  rcases find_answer hx with rfl | rfl
  case inr => exact .fail fun _ _ _ _ => rfl
  case inl =>
    have hrow : s₁.row = some row := hi₁.2.2
    simp only [hrow, Prog.done_bind, Prog.bind_eq, Prog.pure_eq, hi₁.2.1, and_true]
    split
    case isTrue he => exact .done fun _ _ _ => ⟨he.symm, rfl⟩
    case isFalse he =>
      have other {P : Prop} (h : requestHash = row.requestHash) : P := (he h.symm).elim
      refine .bind hi₂ <| .perform (fun _ _ _ => trivial) (fun now s₃ _ hi₃ _ => ?_) fun _ _ _ _ => other
      simp only [checkProgress, ne_eq, he, not_false_eq_true, if_true, Prog.ofExcept, Prog.fail_bind]
      exact .fail fun _ _ _ => other

theorem replaying_sound (i : HttpRequest) : (replaying D row).Sound (httpRequest D i) := by
  cases i with
  | cleanup =>
    exact .bind (.perform fun _ _ => trivial) fun _ => .perform fun _ _ => trivial
  | request requestHash =>
    intro s hi
    refine Protocol.Safe.bind hi <| .attempt <| reserve_replays.mono ?_ ?_
    · rintro _ s' _ hi' ⟨rfl, rfl⟩
      exact (Protocol.Sound.perform fun _ _ _ => .inl rfl) s' hi'
    · intro e s' _ hi' he
      exact (Protocol.Sound.perform fun _ _ hh => .inr (congrArg _ (he hh))) s' hi'

theorem settling_sound (i : HttpRequest) : (settling D).Sound (httpRequest D i) :=
  .of_due (fun _ _ _ => trivial) _

-- Never are two requests executing their handlers that both own the reservation. If all recordings are
-- made by the owners, then a stored success remains as it is until it expires, and determines the
-- answers of all later requests with the same content.
theorem stored_success_is_final (h : s.row = none ∧ s.recorded = []) :
    (∀ c, (keySystem (httpRequest D)).Run (fun _ _ => True) ⟨s, []⟩ c →
      ∀ n m, Executing c n → Executing c m → n = m) ∧
    ∀ c, (keySystem (httpRequest D)).Run RecordsOwn ⟨s, []⟩ c →
      ∀ row, c.shared.row = some row → row.status = .completed →
        ∀ c', (keySystem (httpRequest D)).Run (fun a s => RecordsOwn a s ∧ KeepsRow a s) c c' →
          c'.shared.row = some row ∧ ∀ n, c.procs.length ≤ n →
            (∀ k, ∀ f, c'.procs[n]? ≠ some (.call (.handle k) f)) ∧
            ∀ o f, c'.procs[n]? = some (.call (.respond row.requestHash o) f) →
              o = .ok row.response ∨ o = .error World.connectionClosed := by
  have issued : httpSpending.tickets.Issued (keySystem (httpRequest D)) httpSpending.Valid
      httpSpending.Bounded := httpSpending.issued
  have fair := idempotentRequest_fair D
  have start : httpSpending.tickets.Exclusive httpSpending.Valid httpSpending.Bounded (fun _ => none)
      (⟨s, []⟩ : KeyConfiguration) :=
    .init fun k hk => by simp [httpSpending, h.2] at hk
  refine ⟨fun c r n m hn hm => ?_, fun c r row hrow hs c' r' => ?_⟩
  · have ⟨held, hx⟩ := start.run issued fair r
    obtain ⟨k, f, row, hp, hr, rfl⟩ := hn
    obtain ⟨k', f', row', hp', hr', rfl⟩ := hm
    cases hr.symm.trans hr'
    exact hx.eq_of_uses hp hp' rfl rfl
  · -- The recordings are not only made by the owners, but also for the first time.
    have ⟨held, hx⟩ := start.run issued fair r
    have hsettled : c.shared.Settled := by
      refine ((Protocol.Holds.init (P := settling D) ?_).run settling_sound <|
        start.valid_run issued fair r).inv
      intro row hr
      cases h.1.symm.trans hr
    have ⟨hfrom, _⟩ := Protocol.HoldsFrom.run (P := replaying D row) replaying_sound
      ⟨hsettled, hs, hrow⟩ <| (hx.valid_run issued fair r').mono fun _ _ ⟨⟨ho, hk⟩, hv⟩ => ⟨⟨ho, hv⟩, hk⟩
    refine ⟨hfrom.inv.2.2, fun n hn => ⟨fun k f hp => ?_, fun o f hp => ?_⟩⟩
    · exact ((hfrom.safe n _ hn hp).call hfrom.inv).1
    · exact ((hfrom.safe n _ hn hp).call hfrom.inv).1 rfl

end

-- The settings of the plugin unless they are configured otherwise.
def httpConfig : KeyConfig where
  header            := "X-Idempotency-Key"
  inProgressTimeout := 60000
  ttl               := 86400000
  clearsStatusCode  := true

def performing (n m : Nat) : List (Label KeyChoice Time HttpRequest) :=
  Label.acts n (List.replicate m .plain)

-- A request is answered, and is sent once more.
def answering : List (Label KeyChoice Time HttpRequest) :=
  .flatten [[.spawn (.request "body")], performing 0 3, [.act 0 (.sent ⟨202, "result"⟩)], performing 0 3]

theorem stored_success_is_final_sample : ∃ c : KeyConfiguration, ∃ row, c.shared.row = some row ∧
    row.response = ⟨202, "result"⟩ ∧
      ∀ c', (keySystem (httpRequest httpConfig)).Run (fun a s => RecordsOwn a s ∧ KeepsRow a s) c c' →
        c'.shared.row = some row := by
  have ⟨c, r, hc⟩ := System.exists_run_of_play (C := RecordsOwn) (S := keySystem (httpRequest httpConfig))
    (c := ⟨{}, []⟩)
    (p := fun c => c.shared.row.any fun row =>
      row.status = .completed ∧ row.response = ⟨202, "result"⟩) answering (by decide +kernel)
  have ⟨row, hrow, hp⟩ := (Option.any_eq_true ..).mp hc
  have ⟨hs, hr⟩ := of_decide_eq_true hp
  have final := (stored_success_is_final (D := httpConfig) ⟨rfl, rfl⟩).2 c r row hrow hs
  exact ⟨c, row, hrow, hr, fun c' r' => (final c' r').1⟩

-- The handler of the first request takes longer than the timeout. A retry takes over the reservation
-- and is answered.
def outliving : List (Label KeyChoice Time HttpRequest) :=
  .flatten [
    [.spawn (.request "body")], performing 0 3, [.env 60001, .spawn (.request "body")], performing 1 5,
    [.act 1 (.sent ⟨202, "result"⟩)], performing 1 3
  ]

-- The first request fails after all, and overwrites the success with that. So another retry may have
-- its handler executed again.
def overwriting : List (Label KeyChoice Time HttpRequest) :=
  .flatten [[.act 0 (.sent ⟨502, "error"⟩)], performing 0 3, [.spawn (.request "body")], performing 2 5]

theorem success_overwritten : ∃ c c' : KeyConfiguration,
    (keySystem (httpRequest httpConfig)).Run (fun _ _ => True) ⟨{}, []⟩ c ∧
    (keySystem (httpRequest httpConfig)).Run KeepsRow c c' ∧
    c.shared.row.map (fun row => (row.requestHash, row.status, row.response)) =
      some ("body", .completed, ⟨202, "result"⟩) ∧
    c.procs.length = 2 ∧ (c'.procs[2]?).bind (·.head) = some (.handle 2) := by
  have ⟨c, c', r, r', hc⟩ := System.exists_later_of_play (C := fun _ _ => True) (B := KeepsRow)
    (S := keySystem (httpRequest httpConfig)) (c := ⟨{}, []⟩)
    (p := fun c c' => c.shared.row.map (fun row => (row.requestHash, row.status, row.response)) =
        some ("body", .completed, ⟨202, "result"⟩) ∧
      c.procs.length = 2 ∧ (c'.procs[2]?).bind (·.head) = some (.handle 2)) outliving overwriting
    (by decide +kernel)
  exact ⟨c, c', r, r', of_decide_eq_true hc⟩

end Mergepay.Idempotency
