import Mergepay.Concurrency.System

namespace Concurrency

variable {σ Act : Type} {Res : Act → Type} {ε χ η ι α β : Type}

-- An action and the answer to it.
structure Entry (Act : Type) (Res : Act → Type) (ε : Type) where
  action : Act
  answer : Except ε (Res action)

abbrev Log (Act : Type) (Res : Act → Type) (ε : Type) :=
  List (Entry Act Res ε)

-- What remains of a program once its first actions have been answered as recorded by a log.
inductive Prog.After : Prog Act Res ε α → Log Act Res ε → Prog Act Res ε α → Prop
  | nil : After p [] p
  | cons {k : Except ε (Res a) → Prog Act Res ε α} :
    After (k r) l q → After (call a k) (⟨a, r⟩ :: l) q

namespace Prog.After

variable {p q : Prog Act Res ε α} {f : α → Prog Act Res ε β} {l : Log Act Res ε} {a : Act}

theorem snoc {k : Except ε (Res a) → Prog Act Res ε α} (h : After p l (call a k))
    (r : Except ε (Res a)) : After p (l ++ [⟨a, r⟩]) (k r) := by
  induction l generalizing p with
  | nil =>
    cases h
    exact .cons .nil
  | cons hd tl hi =>
    cases h with
    | cons h => exact .cons (hi h)

theorem of_done {v : α} (h : After (done v : Prog Act Res ε α) l q) : l = [] ∧ q = done v := by
  cases h
  exact ⟨rfl, rfl⟩

theorem of_fail {e : ε} (h : After (fail e : Prog Act Res ε α) l q) : l = [] ∧ q = fail e := by
  cases h
  exact ⟨rfl, rfl⟩

theorem of_call {k : Except ε (Res a) → Prog Act Res ε α} {v : α} (h : After (call a k) l (done v)) :
    ∃ r l', l = ⟨a, r⟩ :: l' ∧ After (k r) l' (done v) := by
  cases h with
  | cons h => exact ⟨_, _, rfl, h⟩

theorem of_perform {v : Res a} (h : After (perform a : Prog Act Res ε (Res a)) l (done v)) :
    l = [⟨a, .ok v⟩] := by
  have ⟨r, l', hl, h⟩ := of_call h
  cases r with
  | error e => cases (of_fail h).2
  | ok v' =>
    have ⟨hl', hv⟩ := of_done h
    cases hv
    rw [hl, hl']

theorem of_perform_fail {e : ε} (h : After (perform a : Prog Act Res ε (Res a)) l (fail e)) :
    l = [⟨a, .error e⟩] := by
  cases h with
  | @cons _ r l _ k h =>
    cases r with
    | ok v    => cases h.of_done.2
    | error e =>
      obtain ⟨rfl, he⟩ := h.of_fail
      cases he
      rfl

theorem not_fail {e : ε} {v : α} (h : After (fail e : Prog Act Res ε α) l (done v)) : False := by
  cases h

-- A sequence is done once both of its parts are.
theorem bind_done (h : After (p.bind f) l (done b)) :
    ∃ l₁ l₂ a, l = l₁ ++ l₂ ∧ After p l₁ (done a) ∧ After (f a) l₂ (done b) := by
  induction p generalizing l with
  | done a => exact ⟨[], l, a, rfl, .nil, h⟩
  | fail e => exact (not_fail h).elim
  | call a k hi =>
    cases h with
    | cons h =>
      have ⟨l₁, l₂, v, hl, h₁, h₂⟩ := hi _ h
      exact ⟨_ :: l₁, l₂, v, congrArg _ hl, .cons h₁, h₂⟩

-- The next action of a sequence belongs to one of its parts.
theorem bind_call (h : After (p.bind f) l (call a k)) : (∃ k', After p l (call a k')) ∨
    ∃ l₁ l₂ v, l = l₁ ++ l₂ ∧ After p l₁ (done v) ∧ After (f v) l₂ (call a k) := by
  induction p generalizing l with
  | done v => exact .inr ⟨[], l, v, rfl, .nil, h⟩
  | fail e => cases (of_fail h).2
  | call a' k' hi =>
    cases h with
    | nil    => exact .inl ⟨k', .nil⟩
    | cons h =>
      rcases hi _ h with ⟨k'', h⟩ | ⟨l₁, l₂, v, hl, h₁, h₂⟩
      case inl => exact .inl ⟨k'', .cons h⟩
      case inr => exact .inr ⟨_ :: l₁, l₂, v, congrArg _ hl, .cons h₁, h₂⟩

-- A sequence fails if one of its parts does.
theorem bind_fail {e : ε} (h : After (p.bind f) l (fail e)) : After p l (fail e) ∨
    ∃ l₁ l₂ a, l = l₁ ++ l₂ ∧ After p l₁ (done a) ∧ After (f a) l₂ (fail e) := by
  induction p generalizing l with
  | done a => exact .inr ⟨[], l, a, rfl, .nil, h⟩
  | fail e' =>
    obtain ⟨rfl, he⟩ := h.of_fail
    cases he
    exact .inl .nil
  | call a k hi =>
    cases h with
    | cons h =>
      rcases hi _ h with h | ⟨l₁, l₂, v, hl, h₁, h₂⟩
      case inl => exact .inl (.cons h)
      case inr => exact .inr ⟨_ :: l₁, l₂, v, congrArg _ hl, .cons h₁, h₂⟩

theorem attempt_done {r : Except ε α} (h : After p.attempt l (done r)) :
    (∃ a, r = .ok a ∧ After p l (done a)) ∨ ∃ e, r = .error e ∧ After p l (fail e) := by
  induction p generalizing l with
  | done a =>
    have ⟨hl, hr⟩ := of_done h
    cases hr
    exact .inl ⟨a, rfl, hl ▸ .nil⟩
  | fail e =>
    have ⟨hl, hr⟩ := of_done h
    cases hr
    exact .inr ⟨e, rfl, hl ▸ .nil⟩
  | call a k hi =>
    cases h with
    | cons h =>
      rcases hi _ h with ⟨v, hr, h⟩ | ⟨e, hr, h⟩
      case inl => exact .inl ⟨v, hr, .cons h⟩
      case inr => exact .inr ⟨e, hr, .cons h⟩

theorem attempt_not_fail {e : ε} (h : After p.attempt l (fail e)) : False := by
  induction p generalizing l with
  | done a      => cases h
  | fail e'     => cases h
  | call a k hi =>
    cases h with
    | cons h => exact hi _ h

theorem attempt_call (h : After p.attempt l (call a k)) : ∃ k', After p l (call a k') := by
  induction p generalizing l with
  | done v => cases (of_done h).2
  | fail e => cases (of_done h).2
  | call a' k' hi =>
    cases h with
    | nil    => exact ⟨k', .nil⟩
    | cons h =>
      have ⟨k'', h⟩ := hi _ h
      exact ⟨k'', .cons h⟩

theorem discard_done (h : After (p.bind fun _ => done ()) l (done ())) : ∃ v, After p l (done v) := by
  obtain ⟨l₁, l₂, v, rfl, h₁, h₂⟩ := h.bind_done
  rw [h₂.of_done.1, List.append_nil]
  exact ⟨v, h₁⟩

theorem discard_call {k : Except ε (Res a) → Prog Act Res ε Unit}
    (h : After (p.bind fun _ => done ()) l (call a k)) : ∃ k', After p l (call a k') := by
  rcases h.bind_call with h | ⟨_, _, _, _, _, h⟩
  case inl => exact h
  case inr => cases h.of_done.2

-- What holds for the entries of each iteration holds for those of the loop.
theorem forEach_done {f : β → Prog Act Res ε Unit} {bs : List β} {P : Entry Act Res ε → Prop}
    (h : After (forEach f bs) l (done ()))
    (hf : ∀ b ∈ bs, ∀ l, After (f b) l (done ()) → ∀ e ∈ l, P e) : ∀ e ∈ l, P e := by
  induction bs generalizing l with
  | nil => simp [(of_done h).1]
  | cons b bs hi =>
    obtain ⟨l₁, l₂, _, rfl, h₁, h₂⟩ := bind_done h
    intro e he
    rcases List.mem_append.mp he with he | he
    case inl => exact hf b List.mem_cons_self l₁ h₁ e he
    case inr => exact hi h₂ (fun b hb => hf b <| List.mem_cons_of_mem _ hb) e he

end Prog.After

-- A program never performs certain actions.
def Prog.Avoids (P : Act → Prop) (p : Prog Act Res ε α) : Prop :=
  ∀ l a k, p.After l (call a k) → ¬P a

namespace Prog.Avoids

variable {P : Act → Prop} {p : Prog Act Res ε α} {f : α → Prog Act Res ε β}

theorem done (v : α) : (done v : Prog Act Res ε α).Avoids P :=
  fun _ _ _ h => by cases h.of_done.2

theorem fail (e : ε) : (fail e : Prog Act Res ε α).Avoids P :=
  fun _ _ _ h => by cases h.of_fail.2

theorem call {k : Except ε (Res a) → Prog Act Res ε α} (ha : ¬P a) (hk : ∀ r, (k r).Avoids P) :
    (call a k).Avoids P := by
  intro l b k' h
  cases h with
  | nil    => exact ha
  | cons h => exact hk _ _ _ _ h

theorem perform (h : ¬P a) : (perform a : Prog Act Res ε (Res a)).Avoids P :=
  call h fun
    | .ok v    => done v
    | .error e => fail e

theorem ofExcept (x : Except ε α) : (ofExcept x : Prog Act Res ε α).Avoids P := by
  cases x with
  | ok a    => exact done a
  | error e => exact fail e

theorem bind (hp : p.Avoids P) (hf : ∀ v, (f v).Avoids P) : (p.bind f).Avoids P := by
  intro l a k h
  rcases h.bind_call with ⟨_, h⟩ | ⟨_, _, v, _, _, h⟩
  case inl => exact hp _ _ _ h
  case inr => exact hf v _ _ _ h

theorem attempt (hp : p.Avoids P) : p.attempt.Avoids P := by
  intro l a k h
  have ⟨_, h⟩ := h.attempt_call
  exact hp _ _ _ h

theorem forEach {f : β → Prog Act Res ε Unit} (h : ∀ b, (f b).Avoids P) (bs : List β) :
    (forEach f bs).Avoids P := by
  induction bs with
  | nil          => exact done ()
  | cons b bs hi => exact bind (h b) fun _ => hi

-- If the first part of a sequence avoids an action that is about to be performed, then it is done.
theorem bind_call {k : Except ε (Res a) → Prog Act Res ε β} (hp : p.Avoids P) (ha : P a)
    (h : (p.bind f).After l (.call a k)) :
    ∃ l₁ l₂ v, l = l₁ ++ l₂ ∧ p.After l₁ (.done v) ∧ (f v).After l₂ (.call a k) := by
  rcases h.bind_call with ⟨_, h⟩ | h
  case inl => exact (hp _ _ _ h ha).elim
  case inr => exact h

end Prog.Avoids

theorem Prog.Avoids.head {P : Act → Prop} {k : Except ε (Res a) → Prog Act Res ε α}
    (h : (Prog.call a k).Avoids P) : ¬P a :=
  h [] a k .nil

theorem Prog.Avoids.rest {P : Act → Prop} {k : Except ε (Res a) → Prog Act Res ε α}
    (h : (Prog.call a k).Avoids P) (r : Except ε (Res a)) : (k r).Avoids P :=
  fun l b k' hb => h (⟨a, r⟩ :: l) b k' (.cons hb)

-- All entries of a log are about actions that were about to be performed at some point.
theorem Prog.Avoids.entries {P : Act → Prop} {p q : Prog Act Res ε α} {l : Log Act Res ε}
    (hp : p.Avoids P) (h : p.After l q) : ∀ e ∈ l, ¬P e.action := by
  induction h with
  | nil => simp
  | cons _ hi =>
    refine List.forall_mem_cons.mpr ⟨hp [] _ _ .nil, hi fun l a k h => ?_⟩
    exact hp (_ :: l) a k (.cons h)

-- A program cannot be done once it has performed certain actions.
def Prog.DoneWithout (P : Act → Prop) (p : Prog Act Res ε α) : Prop :=
  ∀ l v, p.After l (.done v) → ∀ e ∈ l, ¬P e.action

namespace Prog.DoneWithout

variable {P : Act → Prop} {p : Prog Act Res ε α} {f : α → Prog Act Res ε β}

theorem of_avoids (h : p.Avoids P) : p.DoneWithout P :=
  fun _ _ hd => h.entries hd

theorem of_not_done (h : ∀ l v, ¬p.After l (.done v)) : p.DoneWithout P :=
  fun l v hd => (h l v hd).elim

theorem bind (hp : p.DoneWithout P) (hf : ∀ v, (f v).DoneWithout P) : (p.bind f).DoneWithout P := by
  intro l v h e he
  obtain ⟨l₁, l₂, a, rfl, h₁, h₂⟩ := h.bind_done
  rcases List.mem_append.mp he with he | he
  case inl => exact hp l₁ a h₁ e he
  case inr => exact hf a l₂ v h₂ e he

end Prog.DoneWithout

-- The actions of a log that have not been answered with an error.
def Entry.performed (e : Entry Act Res ε) : Option Act :=
  match e.answer with
  | .ok _    => some e.action
  | .error _ => none

def Log.performed (l : Log Act Res ε) : List Act :=
  l.filterMap Entry.performed

@[simp]
theorem Log.performed_nil : Log.performed ([] : Log Act Res ε) = [] :=
  rfl

@[simp]
theorem Log.performed_append {l₁ l₂ : Log Act Res ε} :
    Log.performed (l₁ ++ l₂) = Log.performed l₁ ++ Log.performed l₂ :=
  List.filterMap_append

@[simp]
theorem Log.performed_cons_ok {l : Log Act Res ε} {v : Res a} :
    Log.performed (⟨a, .ok v⟩ :: l) = a :: Log.performed l :=
  rfl

@[simp]
theorem Log.performed_cons_error {l : Log Act Res ε} {e : ε} :
    Log.performed (⟨a, .error e⟩ :: l) = Log.performed l :=
  rfl

theorem Log.mem_performed {l : Log Act Res ε} {a : Act} (h : a ∈ l.performed) :
    ∃ e ∈ l, e.action = a := by
  have ⟨⟨a', r⟩, he, ha⟩ := List.mem_filterMap.mp h
  refine ⟨_, he, ?_⟩
  cases r with
  | ok v    => exact Option.some.inj ha
  | error e => cases ha

-- Whenever a program is done, those of its actions that satisfy `w` and have not been answered with an
-- error meet a condition.
def Prog.Leaves (w : Act → Bool) (p : Prog Act Res ε α) (Q : α → List Act → Prop) : Prop :=
  ∀ l v, p.After l (.done v) → Q v (l.performed.filter w)

namespace Prog.Leaves

variable {w : Act → Bool} {p : Prog Act Res ε α} {f : α → Prog Act Res ε β} {Q : β → List Act → Prop}

theorem done {v : β} (h : Q v []) : (done v : Prog Act Res ε β).Leaves w Q := by
  intro l v' hd
  obtain ⟨rfl, hv⟩ := hd.of_done
  cases hv
  exact h

theorem fail {e : ε} : (fail e : Prog Act Res ε β).Leaves w Q :=
  fun _ _ hd => hd.not_fail.elim

theorem ofExcept {x : Except ε β} (h : ∀ v, x = .ok v → Q v []) :
    (ofExcept x : Prog Act Res ε β).Leaves w Q := by
  cases x with
  | ok v    => exact done (h v rfl)
  | error e => exact fail

theorem bind {P : α → List Act → Prop} (hp : p.Leaves w P)
    (hf : ∀ v as, P v as → (f v).Leaves w fun b bs => Q b (as ++ bs)) : (p.bind f).Leaves w Q := by
  intro l v hd
  obtain ⟨l₁, l₂, a, rfl, h₁, h₂⟩ := hd.bind_done
  rw [Log.performed_append, List.filter_append]
  exact hf a _ (hp l₁ a h₁) l₂ v h₂

-- A sequence that starts with a program of which nothing is left.
theorem nothing_bind (hp : p.Leaves w fun _ as => as = []) (hf : ∀ v, (f v).Leaves w Q) :
    (p.bind f).Leaves w Q :=
  hp.bind fun v _ has => has ▸ hf v

theorem perform {P : Res a → List Act → Prop} (h : ∀ v, P v ([a].filter w)) :
    (perform a : Prog Act Res ε (Res a)).Leaves w P := by
  intro l v hd
  rw [hd.of_perform]
  exact h v

theorem read_bind {f : Res a → Prog Act Res ε β} (ha : w a = false) (hf : ∀ v, (f v).Leaves w Q) :
    ((Prog.perform a).bind f).Leaves w Q :=
  (perform fun _ => by simp [ha]).nothing_bind hf

theorem write_bind {f : Res a → Prog Act Res ε β} (ha : w a = true)
    (hf : ∀ v, (f v).Leaves w fun b bs => Q b (a :: bs)) : ((Prog.perform a).bind f).Leaves w Q :=
  (perform (P := fun _ as => as = [a]) fun _ => by simp [ha]).bind fun v _ has => has ▸ hf v

-- A sequence that starts with a write whose error is dealt with.
theorem attempt_bind {f : Except ε (Res a) → Prog Act Res ε β} (ha : w a = true)
    (hok : ∀ v, (f (.ok v)).Leaves w fun b bs => Q b (a :: bs))
    (herr : ∀ e, (f (.error e)).Leaves w Q) :
    ((Prog.perform a).attempt.bind f).Leaves w Q := by
  intro l v hd
  obtain ⟨l₁, l₂, r, rfl, h₁, h₂⟩ := hd.bind_done
  rcases h₁.attempt_done with ⟨u, rfl, h⟩ | ⟨e, rfl, h⟩
  case inl =>
    rw [h.of_perform]
    simpa [ha] using hok u l₂ v h₂
  case inr =>
    rw [h.of_perform_fail]
    exact herr e l₂ v h₂

end Prog.Leaves

-- A database whose transactions see what has been committed by now, along with their own writes. An
-- action is answered according to a choice of the surroundings, which is undefined if impossible. The
-- writes of an action only happen if it is not answered with an error. `admits` are the constraints
-- that a write has to respect when it is committed.
structure Database (σ Act : Type) (Res : Act → Type) (ε χ : Type) where
  answer : (a : Act) → χ → σ → Option (Except ε (Res a))
  effect : Act → σ → σ
  admits : Act → σ → Bool
  commit : χ → Option (Except ε Unit)

-- What a transaction does to the database, on behalf of the request `i`: it performs its next action
-- after those in `log`, or it commits them all at once.
inductive Database.Step (ι Act : Type) (Res : Act → Type) (ε : Type)
  | act (i : ι) (log : Log Act Res ε) (a : Act)
  | commit (i : ι) (log : Log Act Res ε)

abbrev Database.Step.Answer : Step ι Act Res ε → Type
  | act _ _ a  => Res a
  | commit _ _ => Unit

-- Runs a program as a transaction. Nothing is committed if it raises.
def Prog.transaction (i : ι) (log : Log Act Res ε) :
    Prog Act Res ε α → Prog (Database.Step ι Act Res ε) Database.Step.Answer ε α
  | done a   => call (.commit i log) fun
    | .ok _    => done a
    | .error e => fail e
  | fail e   => fail e
  | call a k => call (.act i log a) fun r => (k r).transaction i (log ++ [⟨a, r⟩])

-- The steps of a transaction that do not meet a condition on the actions that it performs after a certain
-- log, and on the logs that it commits.
def Database.Step.Unfit (A : ι → Log Act Res ε → Act → Prop) (W : ι → Log Act Res ε → Prop) :
    Step ι Act Res ε → Prop
  | .act i log a  => ¬A i log a
  | .commit i log => ¬W i log

theorem Prog.transaction_avoids {A : ι → Log Act Res ε → Act → Prop} {W : ι → Log Act Res ε → Prop}
    {p : Prog Act Res ε α} {i : ι} (ha : ∀ l a k, p.After l (.call a k) → A i l a)
    (hw : ∀ l v, p.After l (.done v) → W i l) :
    (p.transaction i []).Avoids (Database.Step.Unfit A W) := by
  have rest {q : Prog Act Res ε α} {log : Log Act Res ε} (hq : p.After log q) :
      (q.transaction i log).Avoids (Database.Step.Unfit A W) := by
    induction q generalizing log with
    | fail e => exact .fail e
    | done v =>
      refine .call (fun hn => hn (hw log v hq)) fun r => ?_
      cases r with
      | ok _    => exact .done v
      | error e => exact .fail e
    | call a k hi => exact .call (fun hn => hn (ha log a k hq)) fun r => hi r (hq.snoc r)
  exact rest .nil

namespace System

variable {S : System σ Act Res ε χ η ι} {B : Act → Prop} {C : Act → σ → Prop}
  {c c₁ c₂ : Config σ Act Res ε} {l : Label χ η ι}

theorem avoids_set {s : σ} {p : Prog Act Res ε Unit} (h : ∀ q ∈ c.procs, q.Avoids B)
    (hp : p.Avoids B) : ∀ q ∈ (Config.mk s (c.procs.set n p)).procs, q.Avoids B := by
  intro q hq
  rcases List.mem_or_eq_of_mem_set hq with hq | rfl
  case inl => exact h q hq
  case inr => exact hp

-- What is avoided by the programs that are started is avoided by all processes.
theorem avoids_next (hs : ∀ i, (S.entry i).Avoids B) (h : ∀ p ∈ c₁.procs, p.Avoids B)
    (hn : S.next l c₁ = some c₂) : ∀ p ∈ c₂.procs, p.Avoids B := by
  cases l <;> simp only [next, Option.some.injEq] at hn
  case spawn i =>
    subst hn
    intro p hp
    rcases List.mem_append.mp hp with hp | hp
    case inl => exact h p hp
    case inr => exact List.mem_singleton.mp hp ▸ hs i
  case crash =>
    subst hn
    exact avoids_set h <| .done ()
  case env e =>
    obtain ⟨s, hx, hn⟩ := Option.map_eq_some_iff.mp hn
    subst hn
    exact h
  case act n x =>
    split at hn
    case h_2 => contradiction
    case h_1 a k hp =>
      obtain ⟨⟨r, s⟩, hx, hn⟩ := Option.map_eq_some_iff.mp hn
      subst hn
      have hk := h _ (List.mem_of_getElem? hp)
      exact avoids_set h fun l b k' hb => hk (⟨a, r⟩ :: l) b k' (.cons hb)

theorem avoids_run (hs : ∀ i, (S.entry i).Avoids B) (r : S.Run C ⟨s, []⟩ c) :
    ∀ p ∈ c.procs, p.Avoids B := by
  induction r with
  | refl            => simp
  | step _ _ hn hi => exact avoids_next hs hi hn

theorem not_avoided {n : Nat} {k : Except ε (Res a) → Prog Act Res ε Unit} (h : ∀ p ∈ c.procs, p.Avoids B)
    (hp : c.procs[n]? = some (.call a k)) : ¬B a :=
  h _ (List.mem_of_getElem? hp) [] a k .nil

-- A single step either leaves the state as it is, or is an event, or an action that is not avoided.
theorem next_cases (h : ∀ p ∈ c₁.procs, p.Avoids B) (m : c₁.Meets C l) (hn : S.next l c₁ = some c₂) :
    c₂.shared = c₁.shared ∨ (∃ e, S.env e c₁.shared = some c₂.shared) ∨
      ∃ a x r, C a c₁.shared ∧ ¬B a ∧ S.exec a x c₁.shared = some (r, c₂.shared) := by
  rcases next_shared m hn with hs | he | ⟨_, a, _, x, r, hp, hc, hx⟩
  · exact .inl hs
  · exact .inr <| .inl he
  · exact .inr <| .inr ⟨a, x, r, hc, not_avoided h hp, hx⟩

end System

namespace Database

variable (D : Database σ Act Res ε χ)

def apply (e : Entry Act Res ε) (s : σ) : σ :=
  match e.answer with
  | .ok _    => D.effect e.action s
  | .error _ => s

def permits (e : Entry Act Res ε) (s : σ) : Bool :=
  match e.answer with
  | .ok _    => D.admits e.action s
  | .error _ => true

-- The committed state as it is seen by a transaction, and as it is left when that commits.
def view : Log Act Res ε → σ → σ
  | [],     s => s
  | e :: l, s => view l (D.apply e s)

def admitted : Log Act Res ε → σ → Bool
  | [],     _ => true
  | e :: l, s => D.permits e s && admitted l (D.apply e s)

-- Whoever writes a row holds a lock on it until the transaction ends. Therefore no other transaction
-- commits what is in conflict with the writes of one that is still in progress.
def exec : (a : Step ι Act Res ε) → χ → σ → Option (Except ε a.Answer × σ)
  | .act _ log a, x, s =>
    if D.admitted log s then (D.answer a x (D.view log s)).map (·, s) else none
  | .commit _ log, x, s =>
    if D.admitted log s then (D.commit x).map fun
      | .ok _    => (.ok (), D.view log s)
      | .error e => (.error e, s)
    else none

def system (env : η → σ → Option σ) (body : ι → Prog Act Res ε Unit) :
    System σ (Step ι Act Res ε) Step.Answer ε χ η ι where
  exec  := D.exec
  env   := env
  entry := fun i => (body i).transaction i []

variable {D} {I : σ → Prop} {l l₁ l₂ : Log Act Res ε} {s : σ}

theorem view_append : D.view (l₁ ++ l₂) s = D.view l₂ (D.view l₁ s) := by
  induction l₁ generalizing s with
  | nil          => rfl
  | cons e l₁ hi => exact hi

theorem admitted_append :
    D.admitted (l₁ ++ l₂) s = (D.admitted l₁ s && D.admitted l₂ (D.view l₁ s)) := by
  induction l₁ generalizing s with
  | nil          => rfl
  | cons e l₁ hi => rw [List.cons_append, admitted, admitted, view, hi, Bool.and_assoc]

theorem view_eq : D.view l s = (Log.performed l).foldl (fun s a => D.effect a s) s := by
  induction l generalizing s with
  | nil => rfl
  | cons e l hi =>
    obtain ⟨a, r⟩ := e
    cases r with
    | ok v    => exact hi
    | error e => exact hi

-- Whether the constraints are respected by all of several actions.
def allowed : List Act → σ → Bool
  | [],     _ => true
  | a :: l, s => D.admits a s && allowed l (D.effect a s)

theorem admitted_eq : D.admitted l s = D.allowed (Log.performed l) s := by
  induction l generalizing s with
  | nil => rfl
  | cons e l hi =>
    obtain ⟨a, r⟩ := e
    cases r with
    | ok v =>
      rw [Log.performed_cons_ok, allowed, ← hi]
      rfl
    | error e =>
      rw [Log.performed_cons_error, ← hi]
      exact Bool.true_and _

section

variable {w : Act → Bool} (hw : ∀ a s, w a = false → D.effect a s = s ∧ D.admits a s = true)
include hw

-- Actions that do not write can be left out.
theorem foldl_filter {as : List Act} :
    (as.filter w).foldl (fun s a => D.effect a s) s = as.foldl (fun s a => D.effect a s) s := by
  induction as generalizing s with
  | nil          => rfl
  | cons a as hi =>
    cases ha : w a with
    | true  => simpa [ha] using hi
    | false => simpa [ha, (hw a s ha).1] using hi

theorem allowed_filter {as : List Act} : D.allowed (as.filter w) s = D.allowed as s := by
  induction as generalizing s with
  | nil          => rfl
  | cons a as hi =>
    cases ha : w a with
    | true  => simp only [List.filter_cons, ha, if_true, allowed, hi]
    | false => simp [ha, allowed, (hw a s ha).1, (hw a s ha).2, hi]

theorem view_filter :
    D.view l s = ((Log.performed l).filter w).foldl (fun s a => D.effect a s) s := by
  rw [view_eq, foldl_filter hw]

theorem admitted_filter : D.admitted l s = D.allowed ((Log.performed l).filter w) s := by
  rw [admitted_eq, allowed_filter hw]

end

-- Every answer has been given in some state, in which the previous writes of the transaction were
-- admitted.
def Genuine (D : Database σ Act Res ε χ) (I : σ → Prop) (log : Log Act Res ε) : Prop :=
  ∀ l₁ e l₂, log = l₁ ++ e :: l₂ → ∃ x s, I s ∧ D.admitted l₁ s = true ∧
    D.answer e.action x (D.view l₁ s) = some e.answer

namespace Genuine

theorem nil : D.Genuine I [] :=
  fun _ _ _ h => by simp at h

theorem snoc {a : Act} {r : Except ε (Res a)} (h : D.Genuine I l) (hi : I s)
    (ha : D.admitted l s = true) (hr : D.answer a x (D.view l s) = some r) :
    D.Genuine I (l ++ [⟨a, r⟩]) := by
  intro l₁ e l₂ hl
  rcases List.eq_nil_or_concat l₂ with rfl | ⟨l₃, e', rfl⟩
  case inl =>
    obtain ⟨rfl, he⟩ := List.append_inj' hl rfl
    cases he
    exact ⟨x, s, hi, ha, hr⟩
  case inr =>
    rw [List.concat_eq_append, ← List.cons_append, ← List.append_assoc] at hl
    exact h l₁ e l₃ (List.append_inj' hl rfl).1

theorem answered (h : D.Genuine I l) (he : e ∈ l) :
    ∃ l₁ l₂ x s, l = l₁ ++ e :: l₂ ∧ I s ∧ D.admitted l₁ s = true ∧
      D.answer e.action x (D.view l₁ s) = some e.answer := by
  have ⟨l₁, l₂, hl⟩ := List.append_of_mem he
  have ⟨x, s, h⟩ := h l₁ e l₂ hl
  exact ⟨l₁, l₂, x, s, hl, h⟩

end Genuine

-- How far a process has got.
inductive Stage (D : Database σ Act Res ε χ) (body : ι → Prog Act Res ε Unit) (I : σ → Prop) :
    Prog (Step ι Act Res ε) Step.Answer ε Unit → Prop
  | done : Stage D body I (.done ())
  | fail : Stage D body I (.fail e)
  | running : (body i).After log p → D.Genuine I log → Stage D body I (p.transaction i log)

-- A law that is kept by every transaction, provided that its commit meets the condition `C`.
structure Keeps (D : Database σ Act Res ε χ) (env : η → σ → Option σ)
    (body : ι → Prog Act Res ε Unit) (C : Step ι Act Res ε → σ → Prop) (I : σ → Prop) : Prop where
  env {e : η} {s s' : σ} : I s → env e s = some s' → I s'
  commit {i : ι} {log : Log Act Res ε} {s : σ} : I s → C (.commit i log) s → D.admitted log s = true →
    (body i).After log (.done ()) → D.Genuine I log → I (D.view log s)

variable {env : η → σ → Option σ} {body : ι → Prog Act Res ε Unit} {C : Step ι Act Res ε → σ → Prop}

-- What holds in a reachable configuration.
structure Reached (D : Database σ Act Res ε χ) (body : ι → Prog Act Res ε Unit) (I : σ → Prop)
    (c : Config σ (Step ι Act Res ε) Step.Answer ε) : Prop where
  law    : I c.shared
  stages : ∀ p ∈ c.procs, Stage D body I p

namespace Reached

variable {c c₁ c₂ : Config σ (Step ι Act Res ε) Step.Answer ε}

theorem init (h : I s) : D.Reached body I ⟨s, []⟩ where
  law    := h
  stages := by simp

theorem set (h : D.Reached body I c) (hi : I s) (hp : Stage D body I p) :
    D.Reached body I ⟨s, c.procs.set n p⟩ where
  law    := hi
  stages := fun q hq => by
    rcases List.mem_or_eq_of_mem_set hq with hq | rfl
    case inl => exact h.stages q hq
    case inr => exact hp

-- One action of a process.
theorem act (hk : D.Keeps env body C I) (h : D.Reached body I c) (hm : .call a k ∈ c.procs)
    (hc : C a c.shared) (hx : D.exec a x c.shared = some (r, s)) :
    D.Reached body I ⟨s, c.procs.set n (k r)⟩ := by
  generalize hp : Prog.call a k = p at hm
  cases h.stages p hm with
  | done => cases hp
  | fail => cases hp
  | @running i log q ha hg =>
    cases q with
    | fail e => cases hp
    | call b k' =>
      cases hp
      simp only [exec] at hx
      split at hx
      case isFalse => cases hx
      case isTrue had =>
        have ⟨v, hv, hx⟩ := Option.map_eq_some_iff.mp hx
        cases hx
        exact h.set h.law <| .running (ha.snoc _) (hg.snoc h.law had hv)
    | done v =>
      cases hp
      simp only [exec] at hx
      split at hx
      case isFalse => cases hx
      case isTrue had =>
        have ⟨v, hv, hx⟩ := Option.map_eq_some_iff.mp hx
        cases v with
        | ok _ =>
          cases hx
          exact h.set (hk.commit h.law hc had ha hg) .done
        | error e =>
          cases hx
          exact h.set h.law .fail

theorem next {l : Label χ η ι} (hk : D.Keeps env body C I) (h : D.Reached body I c₁)
    (m : c₁.Meets C l) (hn : (D.system env body).next l c₁ = some c₂) : D.Reached body I c₂ := by
  cases l <;> simp only [System.next, Option.some.injEq] at hn
  case spawn i =>
    subst hn
    refine ⟨h.law, fun p hp => ?_⟩
    rcases List.mem_append.mp hp with hp | hp
    case inl => exact h.stages p hp
    case inr => exact List.mem_singleton.mp hp ▸ .running .nil .nil
  case crash =>
    subst hn
    exact h.set h.law .done
  case env e =>
    obtain ⟨s, hx, hn⟩ := Option.map_eq_some_iff.mp hn
    subst hn
    exact ⟨hk.env h.law hx, h.stages⟩
  case act n x =>
    split at hn
    case h_2 => contradiction
    case h_1 a k hp =>
      obtain ⟨⟨r, s⟩, hx, hn⟩ := Option.map_eq_some_iff.mp hn
      subst hn
      exact h.act hk (List.mem_of_getElem? hp) (m _ hp) hx

theorem run (hk : D.Keeps env body C I) (h : D.Reached body I c₁)
    (r : (D.system env body).Run C c₁ c₂) : D.Reached body I c₂ := by
  induction r with
  | refl           => exact h
  | step _ m hn hi => exact hi.next hk m hn

-- An action that is about to be performed is one that its program performs.
theorem pending (h : D.Reached body I c) (hp : .call (.act i log a) k ∈ c.procs) :
    ∃ k', (body i).After log (.call a k') ∧ D.Genuine I log := by
  generalize hq : Prog.call (Step.act i log a) k = p at hp
  cases h.stages p hp with
  | done => cases hq
  | fail => cases hq
  | @running i log q ha hg =>
    cases q with
    | done v => cases hq
    | fail e => cases hq
    | call b k' =>
      cases hq
      exact ⟨k', ha, hg⟩

-- A transaction that is about to commit has performed all of its actions.
theorem committing (h : D.Reached body I c) (hp : .call (.commit i log) k ∈ c.procs) :
    (body i).After log (.done ()) ∧ D.Genuine I log := by
  generalize hq : Prog.call (Step.commit i log) k = p at hp
  cases h.stages p hp with
  | done => cases hq
  | fail => cases hq
  | @running i log q ha hg =>
    cases q with
    | call b k' => cases hq
    | fail e    => cases hq
    | done v =>
      cases hq
      exact ⟨ha, hg⟩

end Reached

-- What is left by a commit that cannot fail.
theorem committed {c c' : Config σ (Step ι Act Res ε) Step.Answer ε}
    (hp : c.procs[n]? = some (.call (.commit i log) k)) (hx : D.commit x = some (.ok ()))
    (hn : (D.system env body).next (.act n x) c = some c') :
    D.admitted log c.shared = true ∧ c'.shared = D.view log c.shared := by
  simp only [System.next, hp, system, exec] at hn
  split at hn
  case isFalse => cases hn
  case isTrue ha =>
    rw [hx] at hn
    cases hn
    exact ⟨ha, rfl⟩

-- A law that is kept by all transactions holds in every state that is committed.
theorem Keeps.law {c : Config σ (Step ι Act Res ε) Step.Answer ε} (hk : D.Keeps env body C I)
    (r : (D.system env body).Run C ⟨s, []⟩ c) (h : I s) : I c.shared :=
  ((Reached.init h).run hk r).law

end Database
end Concurrency
