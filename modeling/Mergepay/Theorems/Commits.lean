import Mergepay.Idempotency.Ownership

namespace Mergepay.Idempotency

open Concurrency

-- The transaction of the operation belongs to a reservation, and uses it up.
def serviceSpending : Spending where
  uses   := fun
    | .commit k _ => some k
    | _           => none
  spends := fun
    | .commit _ _ => true
    | _           => false
  spent  := (·.commits.map (·.1))
  plain  := fun {a} h => by cases a <;> first | exact ⟨rfl, rfl⟩ | cases h
  env    := rfl
  grants := fun {a r} h => by cases a <;> first | (cases r <;> rfl) | cases h
  exec   := fun h => by
    cases h with
    | committed => exact .inr ⟨rfl, _, rfl, by simp⟩
    | _         => exact .inl rfl

theorem serviceRequest_fair (D : KeyConfig) (requestHash : String) :
    serviceSpending.tickets.Fair (serviceRequest D requestHash) none := by
  have respond (response : Response) (h : Option Nat) :
      serviceSpending.tickets.Fair (.perform (.respond requestHash (.ok response))) h :=
    .perform nofun (fun _ => trivial) fun _ => trivial
  have update (k : Nat) (d : Recording) (h : Option Nat) :
      serviceSpending.tickets.Fair (.perform (.update k d)) h :=
    .perform nofun (fun _ => trivial) fun _ => trivial
  have returned {p : KeyTx Response} {h : Option Nat} (hp : serviceSpending.tickets.Fair p h) :
      serviceSpending.tickets.Carries p
        (fun response h => serviceSpending.tickets.Fair (.perform (.respond requestHash (.ok response))) h)
        (fun _ _ => True) h :=
    hp.mono (fun response h _ => respond response h) fun _ _ _ => trivial
  refine .bind <| .bind <| Spending.reserve_carries.mono (fun reserved h hh => ?_) fun _ _ _ => trivial
  cases reserved with
  | replay response => exact respond _ _
  | own attempt =>
    subst hh
    refine returned <| .bind <| .attempt <| .bind <| .perform nofun (fun result => ?_) fun _ => ?_
    · refine .bind <| .perform (fun _ h => h) (fun _ => ?_) fun _ => ?_
      · exact .bind <| .perform nofun (fun _ => trivial) fun _ => .bind <| .bind <| .attempt <|
          (update ..).mono (fun _ _ _ => trivial) fun _ _ _ => trivial
      · exact .bind <| .bind <| .attempt <| (update ..).mono (fun _ _ _ => trivial) fun _ _ _ => trivial
    · exact .bind <| .bind <| .attempt <| (update ..).mono (fun _ _ _ => trivial) fun _ _ _ => trivial

def KeyStore.results (s : KeyStore) : List String :=
  s.commits.map (·.2)

-- What calls return, and what is stored in order to be returned, has been committed.
def Justified : KeyAction → KeyStore → Prop
  | .update _ d, s     => d.status = .completed → ∃ text ∈ s.results, d.responseJson = some text
  | .respond _ o, s    => ∀ response, o = .ok response → response.body ∈ s.results
  | .deleteExpired _, _ => False
  | _, _               => True

def KeyStore.Justified (s : KeyStore) : Prop :=
  ∀ row ∈ s.row, row.status = .completed → row.response.body ∈ s.results

section

variable {D : KeyConfig} {s s' : KeyStore} {a : KeyAction} {r : Except Failure a.Answer} {text : String}

theorem KeyEffect.results (h : KeyEffect s a r s') (ht : text ∈ s.results) : text ∈ s'.results := by
  cases h with
  | committed =>
    simp only [KeyStore.results, List.map_append, List.mem_append]
    exact .inl ht
  | nothing | created | reclaimed | updated | deleted => exact ht

theorem KeyStore.Justified.effect (h : s.Justified) (hj : Idempotency.Justified a s)
    (he : KeyEffect s a r s') : s'.Justified := by
  cases he with
  | nothing => exact h
  | committed =>
    intro row hr hs
    exact KeyEffect.results (a := .commit _ _) (r := .ok ()) .committed (h row hr hs)
  | created | reclaimed =>
    intro row hr hs
    cases hr
    cases hs
  | deleted => exact hj.elim
  | updated =>
    intro row hr hs
    cases hr
    have ⟨text, ht, hd⟩ := hj hs
    simp only [KeyRow.response, hd, Option.getD_some]
    exact ht

variable (D) in
def committing : Protocol (keySystem (serviceRequest D)) where
  cond := Justified
  inv  := KeyStore.Justified
  due  := Justified
  exec := fun h hj hx => h.effect hj (.of_exec hx)
  env  := fun h hx => keyEnv_eq hx ▸ h

theorem results_of_evolves {C : KeyAction → KeyStore → Prop}
    (h : (keySystem (serviceRequest D)).Evolves C s s') (ht : text ∈ s.results) : text ∈ s'.results := by
  induction h with
  | refl         => exact ht
  | act _ _ hx hi => exact (KeyEffect.of_exec hx).results (hi ht)
  | env _ hx hi   =>
    rw [keyEnv_eq hx]
    exact hi ht

-- A row that has been found completed.
theorem results_of_found {row : KeyRow} (hs : row.status = .completed)
    (h : (keySystem (serviceRequest D)).Answered Justified KeyStore.Justified .find (some row) s) :
    row.response.body ∈ s.results := by
  have ⟨s₁, hi, hr, he⟩ := h.before (F := fun s => s.row = some row) fun x s₁ s₂ _ hx => by
    rcases find_answer hx with h | h
    case inl => exact (Except.ok.inj h).symm
    case inr => cases h
  exact results_of_evolves he (hi row hr hs)

-- What is replayed has been committed.
abbrev Replayed : Reserved → KeyStore → Prop
  | .own _, _           => True
  | .replay response, s => response.body ∈ s.results

variable {requestHash : String}

theorem resolveWinner_replays {e : Failure} (hi : s.Justified) :
    (committing D).Safe (resolveWinner D requestHash e) Replayed (fun _ _ => True) s := by
  refine .perform_bind hi (fun _ _ _ => trivial) fun found s' _ _ ha => ?_
  cases found with
  | none        => exact .fail fun _ _ _ => trivial
  | some winner =>
    refine .ofExcept (fun reserved s₁ hr he _ => ?_) fun _ _ _ _ _ => trivial
    simp only [resolve, ne_eq, ite_not] at hr
    split at hr
    case isFalse => cases hr
    case isTrue =>
      split at hr
      case isFalse => cases hr
      case isTrue hs =>
        cases hr
        exact results_of_evolves he (results_of_found hs ha)

theorem reclaim_replays (hi : s.Justified) :
    (committing D).Safe (reclaim D requestHash) Replayed (fun _ _ => True) s := by
  refine .perform_bind hi (fun _ _ _ => trivial) fun staleFrom s₁ _ hi₁ _ => ?_
  refine .perform_bind hi₁ (fun _ _ _ => trivial) fun now s₂ _ hi₂ _ => ?_
  refine .perform_bind hi₂ (fun _ _ _ => trivial) fun claimed s₃ _ hi₃ _ => ?_
  cases claimed with
  | some attempt => exact .done fun _ _ _ => trivial
  | none         => exact resolveWinner_replays hi₃

theorem reserveNew_replays (hi : s.Justified) :
    (committing D).Safe (reserveNew D requestHash) Replayed (fun _ _ => True) s := by
  refine .perform_bind hi (fun _ _ _ => trivial) fun now s₁ _ hi₁ _ => ?_
  refine .bind hi₁ <| .attempt <| .perform (fun _ _ _ => trivial) (fun _ _ _ _ _ => ?_)
    fun e s₂ _ hi₂ => ?_
  · exact .done fun _ _ _ => trivial
  · simp only [Prog.bind_eq, Prog.throw_eq, Prog.fail_bind]
    split
    case isTrue  => exact .fail fun _ _ _ => trivial
    case isFalse => exact resolveWinner_replays hi₂

theorem reserve_justified (hi : s.Justified) :
    (committing D).Safe (reserve D requestHash) Replayed (fun _ _ => True) s := by
  refine .perform_bind hi (fun _ _ _ => trivial) fun found s₁ _ hi₁ ha => ?_
  cases found with
  | none          => exact reserveNew_replays hi₁
  | some existing =>
    simp only [Prog.bind_eq, Prog.pure_eq]
    split
    case isTrue hs => exact .done fun s' he _ => results_of_evolves he (results_of_found hs.2 ha)
    case isFalse   =>
      refine .perform_bind hi₁ (fun _ _ _ => trivial) fun now s₂ _ hi₂ _ => ?_
      exact .ofExcept_bind fun _ _ => reclaim_replays hi₂

-- The operation returns what it has committed.
theorem operate_justified {attempt : Nat} (hi : s.Justified) :
    (committing D).Safe (operate attempt) (fun response s => response.body ∈ s.results)
      (fun _ _ => True) s := by
  refine .perform_bind hi (fun _ _ _ => trivial) fun result s₁ _ hi₁ _ => ?_
  refine .perform_bind hi₁ (fun _ _ _ => trivial) fun _ s₂ _ hi₂ ha => ?_
  have hr : result ∈ s₂.results := by
    have ⟨s₃, _, hr, he⟩ := ha.after (F := fun s => result ∈ s.results) fun x s₁ s₂ _ hx => by
      cases x <;> cases hx
      simp [KeyStore.results]
    exact results_of_evolves he hr
  refine .perform_bind hi₂ (fun s₃ he _ _ => ⟨result, results_of_evolves he hr, rfl⟩) fun _ s₃ he _ _ => ?_
  exact .done fun s₄ he' _ => results_of_evolves (he.trans he') hr

theorem finalize_justified {attempt : Nat} (hi : s.Justified) :
    (committing D).Safe (finalize attempt) (fun response s => response.body ∈ s.results)
      (fun _ _ => True) s := by
  refine .bind hi <| .attempt <| (operate_justified hi).mono (fun response s₁ _ _ hr => ?_)
    fun e s₁ _ hi₁ _ => ?_
  · exact .done fun _ he _ => results_of_evolves he hr
  · refine .bind hi₁ <| (Protocol.Fine.swallow hi₁ ?_).mono (fun _ _ _ _ _ => ?_) fun _ _ _ _ _ => trivial
    · exact .perform (fun _ _ _ => nofun) (fun _ _ _ _ _ => trivial) fun _ _ _ _ => trivial
    · exact .fail fun _ _ _ => trivial

theorem serviceRequest_sound : (committing D).Sound (serviceRequest D requestHash) := by
  intro s hi
  refine Protocol.Safe.bind hi <| .bind hi <| (reserve_justified hi).mono (fun reserved s₁ _ hi₁ hr => ?_)
    fun _ _ _ _ _ => trivial
  have respond {response : Response} {s : KeyStore} (hr : response.body ∈ s.results) :
      (committing D).Fine (.perform (.respond requestHash (.ok response))) s :=
    .perform (fun s' he _ o ho => Except.ok.inj ho ▸ results_of_evolves he hr) (fun _ _ _ _ _ => trivial)
      fun _ _ _ _ => trivial
  cases reserved with
  | own attempt =>
    exact (finalize_justified hi₁).mono (fun _ _ _ _ => respond) fun _ _ _ _ _ => trivial
  | replay response => exact .done fun s' he _ => respond (results_of_evolves he hr)

end

-- A key is only taken over from those who have not committed, and only its owner commits.
def InOrder : KeyAction → KeyStore → Prop
  | .reclaim requestHash staleBefore _ _, s =>
    ∀ row ∈ s.row, KeyStore.reclaimable requestHash staleBefore row = true → s.commits = []
  | .commit k _, s => ∀ row ∈ s.row, row.owner = k
  | _, _           => True

instance (a : KeyAction) (s : KeyStore) : Decidable (InOrder a s) := by
  unfold InOrder
  split <;> infer_instance

-- Once the operation has been committed, this has been done by the owner of the key.
structure KeyStore.Single (s : KeyStore) : Prop where
  reserved : s.attempts ≠ 0 → ∃ row, s.row = some row
  single   : s.commits = [] ∨ ∃ row text, s.row = some row ∧ s.commits = [(row.owner, text)]

section

variable {D : KeyConfig} {s s' : KeyStore} {a : KeyAction} {r : Except Failure a.Answer}

-- A call of the mechanism returns.
def Returning (c : KeyConfiguration) (response : Response) : Prop :=
  ∃ (n : Nat) (requestHash : String) (k : _), c.procs[n]? = some (.call (.respond requestHash (.ok response)) k)

abbrev ServiceCond (a : KeyAction) (s : KeyStore) : Prop :=
  (InOrder a s ∧ Justified a s) ∧ ∀ k ∈ serviceSpending.uses a, serviceSpending.Valid k s

theorem KeyStore.Single.effect (h : s.Single) (hc : ServiceCond a s) (he : KeyEffect s a r s') :
    s'.Single := by
  have ⟨⟨ho, hj⟩, hv⟩ := hc
  cases he with
  | nothing => exact h
  | deleted => exact hj.elim
  | created hn =>
    refine ⟨fun _ => ⟨_, rfl⟩, .inl ?_⟩
    rcases h.single with hs | ⟨row, _, hr, _⟩
    case inl => exact hs
    case inr => cases hn.symm.trans hr
  | reclaimed hr hm => exact ⟨fun _ => ⟨_, rfl⟩, .inl (ho _ hr hm)⟩
  | @updated row _ _ _ hr =>
    refine ⟨fun _ => ⟨_, rfl⟩, ?_⟩
    rcases h.single with hs | ⟨row', text, hr', hs⟩
    case inl => exact .inl hs
    case inr =>
      cases hr.symm.trans hr'
      exact .inr ⟨_, text, rfl, hs⟩
  | @committed k v =>
    have ⟨hk, hn⟩ := hv k rfl
    have ⟨row, hr⟩ := h.reserved (Nat.ne_zero_of_lt hk)
    have hown : row.owner = k := ho row hr
    refine ⟨h.reserved, .inr ⟨row, v, hr, ?_⟩⟩
    rcases h.single with hs | ⟨row', text, hr', hs⟩
    case inl => simp [hs, hown]
    case inr =>
      -- The owner has used up its reservation.
      cases hr.symm.trans hr'
      exact (hn <| by simp [serviceSpending, hs, hown]).elim

variable (D) in
def single : Protocol (keySystem (serviceRequest D)) where
  cond := ServiceCond
  inv  := KeyStore.Single
  due  := fun _ _ => True
  exec := fun h hc hx => h.effect hc (.of_exec hx)
  env  := fun h hx => keyEnv_eq hx ▸ ⟨h.reserved, h.single⟩

theorem responding {C : KeyAction → KeyStore → Prop} {t : Time} {c : KeyConfiguration}
    (r : (keySystem (serviceRequest D)).Run C ⟨{ now := t }, []⟩ c) : (committing D).Holds c :=
  (Protocol.Holds.init fun _ hr => by cases hr).run_due (fun _ _ _ hd => hd)
    (fun _ => serviceRequest_sound) r

-- All calls that return have their result from an operation that has been committed. If keys are only
-- taken over from those who have not committed, and only the owner of a key commits, then at most one
-- operation is ever committed. So its result is what all calls return.
theorem commits_at_most_once (D : KeyConfig) (t : Time) :
    (∀ c, (keySystem (serviceRequest D)).Run (fun _ _ => True) ⟨{ now := t }, []⟩ c →
      ∀ response, Returning c response → response.body ∈ c.shared.results) ∧
    ∀ c, (keySystem (serviceRequest D)).Run InOrder ⟨{ now := t }, []⟩ c →
      c.shared.commits.length ≤ 1 ∧
      ∀ response, Returning c response → ∃ attempt, c.shared.commits = [(attempt, response.body)] := by
  have returned {C : KeyAction → KeyStore → Prop} {c : KeyConfiguration} {response : Response}
      (r : (keySystem (serviceRequest D)).Run C ⟨{ now := t }, []⟩ c) (h : Returning c response) :
      response.body ∈ c.shared.results := by
    have ⟨n, requestHash, k, hp⟩ := h
    have hc := responding r
    exact ((hc.safe _ <| List.mem_of_getElem? hp).call hc.inv).1 response rfl
  refine ⟨fun c r response h => returned r h, fun c r => ?_⟩
  have start : serviceSpending.tickets.Exclusive serviceSpending.Valid serviceSpending.Bounded
      (fun _ => none) (⟨{ now := t }, []⟩ : KeyConfiguration) :=
    .init fun _ => nofun
  have justified : (keySystem (serviceRequest D)).Run (fun a s => InOrder a s ∧ Justified a s)
      ⟨{ now := t }, []⟩ c :=
    r.strengthen fun _ _ r m => (responding r).owes m
  have hs : c.shared.Single := by
    refine ((Protocol.Holds.init (P := single D) ?_).run (fun _ => .of_due (fun _ _ _ => trivial) _) <|
      start.valid_run serviceSpending.issued (serviceRequest_fair D) justified).inv
    exact ⟨fun h => (h rfl).elim, .inl rfl⟩
  refine ⟨?_, fun response h => ?_⟩
  · rcases hs.single with hs | ⟨_, _, _, hs⟩ <;> simp [hs]
  · have hm := returned r h
    rcases hs.single with hs | ⟨row, text, _, hs⟩
    case inl => simp [KeyStore.results, hs] at hm
    case inr =>
      simp only [KeyStore.results, hs, List.map_singleton, List.mem_singleton] at hm
      exact ⟨row.owner, hm ▸ hs⟩

end

-- The settings of the service.
def serviceConfig : KeyConfig where
  header            := "Idempotency-Key"
  inProgressTimeout := 60000
  ttl               := 86400000
  clearsStatusCode  := false

def serving (n m : Nat) : List (Label KeyChoice Time String) :=
  Label.acts n (List.replicate m .plain)

-- A call is followed by a second one with the same content.
def retrying : List (Label KeyChoice Time String) :=
  [.spawn "body"] ++ serving 0 3 ++ [.act 0 (.returned "created")] ++ serving 0 3 ++ [.spawn "body"] ++
    serving 1 1

theorem commits_at_most_once_sample : ∃ c : KeyConfiguration,
    (c.procs[1]?).bind (·.head) = some (.respond "body" (.ok ⟨200, "created"⟩)) ∧
    c.shared.commits = [(0, "created")] ∧ c.shared.commits.length ≤ 1 := by
  have ⟨c, r, hc⟩ := System.exists_run_of_play (C := InOrder) (S := keySystem (serviceRequest serviceConfig))
    (c := ⟨{ now := 0 }, []⟩)
    (p := fun c => (c.procs[1]?).bind (·.head) = some (.respond "body" (.ok ⟨200, "created"⟩)) ∧
      c.shared.commits = [(0, "created")]) retrying (by decide +kernel)
  have ⟨hr, hs⟩ := of_decide_eq_true hc
  exact ⟨c, hr, hs, ((commits_at_most_once serviceConfig 0).2 c r).1⟩

-- The operation has been committed when the mark for its key fails. So the key is marked as failed, and
-- the retry commits the operation once more.
def committingAgain : List (Label KeyChoice Time String) :=
  .flatten [
    [.spawn "body"], serving 0 3, [.act 0 (.returned "first")], serving 0 1, [.act 0 .failed], serving 0 1,
    [.spawn "body"], serving 1 5, [.act 1 (.returned "second")], serving 1 2
  ]

theorem committed_twice : ∃ c : KeyConfiguration,
    (keySystem (serviceRequest serviceConfig)).Run (fun _ _ => True) ⟨{ now := 0 }, []⟩ c ∧
    c.shared.commits = [(0, "first"), (1, "second")] ∧
    (c.procs[1]?).bind (·.head) = some (.respond "body" (.ok ⟨200, "second"⟩)) := by
  have ⟨c, r, hc⟩ := System.exists_run_of_play (C := fun _ _ => True)
    (S := keySystem (serviceRequest serviceConfig)) (c := ⟨{ now := 0 }, []⟩)
    (p := fun c => c.shared.commits = [(0, "first"), (1, "second")] ∧
      (c.procs[1]?).bind (·.head) = some (.respond "body" (.ok ⟨200, "second"⟩))) committingAgain
    (by decide +kernel)
  exact ⟨c, r, of_decide_eq_true hc⟩

end Mergepay.Idempotency
