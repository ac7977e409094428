import Mergepay.Anchors.Runs

namespace Mergepay.Anchors

open Concurrency Withdrawals

-- A transfer that the anchor knows about, and which may be polled.
structure AnchorSession.Tracked (row : AnchorSession) (token externalId : String) : Prop where
  hasToken       : row.anchorToken = some token
  hasTransaction : row.externalTransactionId = some externalId
  token_ne       : token ≠ ""
  externalId_ne  : externalId ≠ ""

-- Data that are silent about the transfer, or tell all about it.
def SessionData.Whole (data : SessionData) : Prop :=
  data.anonymous = true ∨ ∃ token externalId, data.anchorToken = some token ∧
    data.externalTransactionId = some externalId ∧ token ≠ "" ∧ externalId ≠ ""

def AnchorSession.Whole (row : AnchorSession) : Prop :=
  row.externalTransactionId = none ∨ ∃ token externalId, row.Tracked token externalId

def AnchorAction.Whole : AnchorAction → Prop
  | createSession row                       => row.externalTransactionId = none
  | update _ data | updateFrom _ _ _ data => data.Whole
  | _                                       => True

def AnchorStore.Whole (s : AnchorStore) : Prop :=
  ∀ row ∈ s.sessions, row.Whole

section

variable {row : AnchorSession} {data : SessionData} {token externalId id : String} {a : AnchorAction}
  {s s' : AnchorStore} {log : AnchorLog} {target : Sep24TransactionStatus} {i : SessionRequest}

theorem AnchorSession.Tracked.set (h : row.Tracked token externalId) (hd : data.anonymous = true) :
    (row.set data).Tracked token externalId := by
  have ⟨he, ht⟩ := of_decide_eq_true hd
  refine ⟨?_, ?_, h.token_ne, h.externalId_ne⟩
  · rw [AnchorSession.set, ht]
    exact h.hasToken
  · rw [AnchorSession.set, he]
    exact h.hasTransaction

theorem AnchorSession.Tracked.move (h : row.Tracked token externalId) (hd : data.anonymous = true) :
    (row.move target data).Tracked token externalId :=
  have h := h.set hd
  ⟨h.hasToken, h.hasTransaction, h.token_ne, h.externalId_ne⟩

theorem AnchorSession.Whole.set (h : row.Whole) (hd : data.Whole) : (row.set data).Whole := by
  rcases hd with hd | ⟨token, externalId, ht, he, hne⟩
  case inl =>
    rcases h with h | ⟨token, externalId, h⟩
    case inl =>
      refine .inl ?_
      rw [AnchorSession.set, (of_decide_eq_true hd).1]
      exact h
    case inr => exact .inr ⟨token, externalId, h.set hd⟩
  case inr =>
    refine .inr ⟨token, externalId, ?_, ?_, hne.1, hne.2⟩
    · rw [AnchorSession.set, ht]
      rfl
    · rw [AnchorSession.set, he]
      rfl

theorem AnchorSession.Whole.move (h : row.Whole) (hd : data.Whole) : (row.move target data).Whole :=
  (h.set hd).imp_right fun ⟨token, externalId, h⟩ =>
    ⟨token, externalId, h.hasToken, h.hasTransaction, h.token_ne, h.externalId_ne⟩

-- Claims and releases leave the transfer alone.
theorem AnchorSession.Whole.of_eq {row' : AnchorSession} (h : row.Whole)
    (ht : row'.anchorToken = row.anchorToken) (he : row'.externalTransactionId = row.externalTransactionId) :
    row'.Whole := by
  rcases h with h | ⟨token, externalId, h⟩
  case inl => exact .inl (he.trans h)
  case inr => exact .inr ⟨token, externalId, ht.trans h.hasToken, he.trans h.hasTransaction, h.token_ne,
    h.externalId_ne⟩

theorem AnchorStore.Whole.update {p : AnchorSession → Bool} {f : AnchorSession → AnchorSession} (h : s.Whole)
    (hs : s'.sessions = Table.update p f s.sessions) (hf : ∀ row, row.Whole → (f row).Whole) : s'.Whole := by
  intro row' hrow'
  rw [hs] at hrow'
  have ⟨row, hrow, he⟩ := Table.mem_update.mp hrow'
  subst he
  split
  · exact hf row (h row hrow)
  · exact h row hrow

theorem AnchorStore.Whole.effect (h : s.Whole) (ha : a.Whole) : (anchorEffect a s).Whole := by
  cases a with
  | createSession row =>
    intro row' hrow'
    rcases List.mem_append.mp hrow' with hrow' | hrow'
    case inl => exact h row' hrow'
    case inr => exact List.mem_singleton.mp hrow' ▸ .inl ha
  | update            => exact h.update rfl fun _ hr => hr.set ha
  | updateFrom        => exact h.update rfl fun _ hr => hr.move ha
  | claim             => exact h.update rfl fun _ hr => hr.of_eq rfl rfl
  | release           => exact h.update rfl fun _ hr => hr.of_eq rfl rfl
  | recoverLeases     => exact h.update rfl fun _ hr => hr.of_eq rfl rfl
  | _                 => exact h

theorem AnchorStore.Whole.view (h : s.Whole) (hl : ∀ a ∈ log.performed, a.Whole) :
    (anchorDatabase.view log s).Whole := by
  induction log generalizing s with
  | nil => exact h
  | cons e log hi =>
    obtain ⟨a, r⟩ := e
    cases r with
    | error => exact hi h hl
    | ok =>
      have ⟨ha, hl⟩ := List.forall_mem_cons.mp hl
      exact hi (h.effect ha) hl

-- What a transition writes is what it is given.
theorem transition_whole {params : TransitionParams} {v : AnchorSessionUpdateResult}
    (hp : ∀ data ∈ params.extraData, data.Whole) (h : (applyAnchorSessionTransition params).After log (.done v)) :
    ∀ a ∈ log.performed, a.Whole := by
  obtain ⟨session, rest, rfl, hr⟩ := applyAnchorSessionTransition_done h
  refine List.forall_mem_cons.mpr ⟨trivial, ?_⟩
  cases hr with
  | ignored | repeated => simp
  | superseded         => exact fun a ha => by cases ha
  | updated _ hd => exact List.forall_mem_cons.mpr ⟨hp _ hd, by simp⟩
  | changed =>
    refine List.forall_mem_cons.mpr ⟨?_, List.forall_mem_cons.mpr ⟨trivial, List.forall_mem_cons.mpr
      ⟨trivial, List.forall_mem_cons.mpr ⟨trivial, by simp⟩⟩⟩⟩
    cases hd : params.extraData with
    | none      => exact .inl rfl
    | some data => exact hp data hd

theorem whole (i : SessionRequest) : Inclusive (fun _ log => ∀ a ∈ log.performed, a.Whole) i where
  routine {a v} ha := by
    refine List.forall_mem_cons.mpr ⟨?_, by simp⟩
    cases a with
    | update => exact .inl ha
    | claim | release | recoverLeases | createAudit => trivial
    | _      => cases ha
  creation hd := by
    obtain ⟨l₁, l₂, id, rfl, h₁, h₂⟩ := Prog.After.bind_done hd
    obtain ⟨l₃, l₄, _, rfl, h₃, h₄⟩ := Prog.After.bind_done h₂
    obtain ⟨l₅, l₆, _, rfl, h₅, h₆⟩ := Prog.After.bind_done h₄
    rw [h₁.of_perform, h₃.of_perform, h₅.of_perform, h₆.of_done.1]
    exact List.forall_mem_cons.mpr ⟨trivial, List.forall_mem_cons.mpr ⟨rfl, List.forall_mem_cons.mpr
      ⟨trivial, by simp⟩⟩⟩
  change hp hd := transition_whole (fun data h => .inl (hp data h)) hd

end

def wholeDue : SessionAct → AnchorStore → Prop
  | .act _ _ _, _    => True
  | .commit _ log, _ => ∀ a ∈ log.performed, a.Whole

def wholeProtocol : Protocol sessionSystem :=
  Database.protocol (fun _ _ => True) wholeDue AnchorStore.Whole (fun _ _ _ hi _ hd _ => hi.view hd)
    fun _ _ _ hi he => by
      rw [anchorEnv_eq he]
      exact hi

section

variable {D : AnchorDeps} {i : SessionRequest} {s : AnchorStore}

theorem transition_fine_of_whole {params : TransitionParams} (hp : ∀ data ∈ params.extraData, data.Whole) :
    wholeProtocol.Fine (transition i params) s :=
  Database.Transacts.safe {
    act  := fun _ _ _ => trivial
    due  := fun ha _ _ _ => transition_whole hp ha
    done := fun _ _ _ _ _ _ _ _ => trivial
    fail := fun _ _ _ _ => trivial
    lost := fun _ _ _ => trivial
  }

-- Neither the token nor the id of a transaction that the anchor answers with is empty.

theorem token_ne_of_answered {i : SessionRequest} {endpoint xdr token : String} {s' : AnchorStore}
    (h : sessionSystem.exec (.act i [] (.getToken endpoint xdr)) x s = some (.ok token, s')) : token ≠ "" := by
  have h : anchorDatabase.exec (.act i [] (.getToken endpoint xdr)) x s = some (.ok token, s') := h
  have ⟨_, _, hr⟩ := Database.exec_act h
  cases x <;> simp [anchorDatabase, anchorAnswer] at hr
  exact hr.2 ▸ hr.1

theorem id_ne_of_answered {i : SessionRequest} {server token kind asset account : String}
    {interactive : Interactive} {s' : AnchorStore}
    (h : sessionSystem.exec (.act i [] (.startInteractive server token kind asset account)) x s =
      some (.ok interactive, s')) : interactive.id ≠ "" := by
  have h : anchorDatabase.exec (.act i [] (.startInteractive server token kind asset account)) x s =
    some (.ok interactive, s') := h
  have ⟨_, _, hr⟩ := Database.exec_act h
  cases x <;> simp [anchorDatabase, anchorAnswer] at hr
  exact hr.2 ▸ hr.1

theorem complete_fine {userId publicKey id xdr : String} (hi : s.Whole) :
    wholeProtocol.Fine (complete i userId publicKey id xdr) s := by
  refine .perform_bind hi (fun _ _ _ => trivial) fun found s₁ _ hi₁ _ => ?_
  split
  case h_2 => exact .fail _
  case h_1 session =>
    simp only [Prog.bind_eq, Prog.throw_eq, Prog.fail_bind, Prog.pure_eq]
    split
    case isTrue => exact .fail _
    case isFalse =>
      refine .perform_bind hi₁ (fun _ _ _ => trivial) fun toml s₂ _ hi₂ _ => ?_
      refine .perform_bind hi₂ (fun _ _ _ => trivial) fun token s₃ _ hi₃ htoken => ?_
      refine .perform_bind hi₃ (fun _ _ _ => trivial) fun interactive s₄ _ hi₄ hid => ?_
      have ⟨_, _, htoken, _⟩ := htoken.before (F := fun _ => token ≠ "") fun _ _ _ _ hx => token_ne_of_answered hx
      have ⟨_, _, hid, _⟩ := hid.before (F := fun _ => interactive.id ≠ "") fun _ _ _ _ hx => id_ne_of_answered hx
      refine .bind hi₄ (transition_fine_of_whole fun data hd => ?_) fun _ _ _ _ _ => .done _
      cases hd
      exact .inr ⟨token, interactive.id, rfl, rfl, htoken, hid⟩

theorem sessionRequest_fine (i : SessionRequest) (s : AnchorStore) (hi : s.Whole) :
    wholeProtocol.Safe (sessionRequest D i) (fun _ _ => True) (fun _ _ => True) s := by
  have within (h : Within (fun _ log => ∀ a ∈ log.performed, a.Whole) (sessionRequest D i)) :
      wholeProtocol.Fine (sessionRequest D i) s :=
    .of_avoids (fun a s _ hn => match a with
      | .act _ _ _    => trivial
      | .commit _ _   => not_not.mp hn) h s
  cases i with
  | complete => exact Protocol.Fine.bind hi (complete_fine hi) fun _ _ _ _ _ => .done _
  | start | callback | poll | recover =>
    exact within <| (whole _).sessionRequest_within (by rintro id ⟨_, _, _, h⟩; cases h)

-- In every run that starts without sessions, a transfer that the anchor knows about may be polled.
theorem whole_run {c : ServerConfig} (hs : s.sessions = [])
    (r : (sessionServer D).Run (Reported.Meets fun _ _ => True) ⟨⟨s, []⟩, []⟩ c) : c.shared.state.Whole := by
  have hw : s.Whole := fun row hrow => by simp [hs] at hrow
  have h : wholeProtocol.Reports (fun _ _ _ => True) c :=
    (Protocol.Reports.init hw).run (fun _ _ => And.intro) sessionRequest_fine r
  exact h.inv

end

end Mergepay.Anchors
