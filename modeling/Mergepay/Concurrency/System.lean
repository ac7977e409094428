import Mathlib.Logic.Basic

namespace Concurrency

-- A program over a shared state, cut at the points where it touches that state. `call a k` performs
-- the atomic action `a` and continues with whatever the action answered, which may be an error.
-- Between two calls the program only computes on values it has already read.
inductive Prog (Act : Type) (Res : Act → Type) (ε α : Type)
  | done (a : α)
  | fail (e : ε)
  | call (a : Act) (k : Except ε (Res a) → Prog Act Res ε α)

namespace Prog

variable {Act : Type} {Res : Act → Type} {ε α β : Type}

def bind : Prog Act Res ε α → (α → Prog Act Res ε β) → Prog Act Res ε β
  | done a,   f => f a
  | fail e,   _ => fail e
  | call a k, f => call a fun r => (k r).bind f

def tryCatch : Prog Act Res ε α → (ε → Prog Act Res ε α) → Prog Act Res ε α
  | done a,   _ => done a
  | fail e,   h => h e
  | call a k, h => call a fun r => (k r).tryCatch h

instance : Monad (Prog Act Res ε) where
  pure := done
  bind := bind

instance : MonadExceptOf ε (Prog Act Res ε) where
  throw    := fail
  tryCatch := tryCatch

-- Performs a single action, and raises the error if it answers with one.
def perform (a : Act) : Prog Act Res ε (Res a) :=
  call a fun
    | .ok v    => done v
    | .error e => fail e

-- A computation without actions.
def ofExcept : Except ε α → Prog Act Res ε α
  | .ok a    => done a
  | .error e => fail e

-- Runs `p` and hands its error to the continuation as a value. This is the shape of a `try` block
-- whose handler lies outside of it: errors raised by the handler are not caught again.
def attempt : Prog Act Res ε α → Prog Act Res ε (Except ε α)
  | done a   => done (.ok a)
  | fail e   => done (.error e)
  | call a k => call a fun r => (k r).attempt

-- Runs `p` and discards its outcome, even if that is an error.
def swallow (p : Prog Act Res ε α) : Prog Act Res ε Unit :=
  p.attempt.bind fun _ => done ()

-- Runs `body` on each element of a list in order. An error stops the loop.
def forEach (body : β → Prog Act Res ε Unit) : List β → Prog Act Res ε Unit
  | []       => done ()
  | hd :: tl => (body hd).bind fun _ => forEach body tl

-- The program has returned.
def isDone : Prog Act Res ε α → Bool
  | done _            => true
  | fail _ | call _ _ => false

-- The error that a program has ended with.
def raised : Prog Act Res ε α → Option ε
  | fail e            => some e
  | done _ | call _ _ => none

-- The outcome of a program whose actions all have a known answer. This is what a program does that
-- only reads, as long as nobody else writes.
def answered (f : (a : Act) → Except ε (Res a)) : Prog Act Res ε α → Except ε α
  | done a   => .ok a
  | fail e   => .error e
  | call a k => (k (f a)).answered f

@[simp]
theorem bind_eq (p : Prog Act Res ε α) (f : α → Prog Act Res ε β) : p >>= f = p.bind f :=
  rfl

@[simp]
theorem pure_eq (a : α) : (pure a : Prog Act Res ε α) = done a :=
  rfl

@[simp]
theorem done_bind (a : α) (f : α → Prog Act Res ε β) : (done a).bind f = f a :=
  rfl

@[simp]
theorem fail_bind (e : ε) (f : α → Prog Act Res ε β) : (fail e).bind f = fail e :=
  rfl

@[simp]
theorem throw_eq (e : ε) : (throw e : Prog Act Res ε α) = fail e :=
  rfl

theorem answered_bind (f : (a : Act) → Except ε (Res a)) (p : Prog Act Res ε α)
    (g : α → Prog Act Res ε β) : (p.bind g).answered f = p.answered f >>= fun a => (g a).answered f := by
  induction p with
  | done a      => rfl
  | fail e      => rfl
  | call a k hi => exact hi (f a)

end Prog

variable {σ Act : Type} {Res : Act → Type} {ε χ η ι : Type}

-- Any number of programs that share a state `σ`. Each action is atomic, but its outcome may depend
-- on a choice `χ` of its surroundings (which answer a remote service gives, whether a write fails).
-- `exec` is undefined for choices that are impossible in the given state. Apart from the programs,
-- the surroundings may change the state on their own by an event `η`. New programs are started
-- from the entry points `ι`.
structure System (σ Act : Type) (Res : Act → Type) (ε χ η ι : Type) where
  exec  : (a : Act) → χ → σ → Option (Except ε (Res a) × σ)
  env   : η → σ → Option σ
  entry : ι → Prog Act Res ε Unit

structure Config (σ Act : Type) (Res : Act → Type) (ε : Type) where
  shared : σ
  procs  : List (Prog Act Res ε Unit) := []

-- A process is named by its position in `Config.procs`. It may stop for good at any point (`crash`),
-- in which case its remaining actions never happen.
inductive Label (χ η ι : Type)
  | spawn (i : ι)
  | act (n : Nat) (x : χ)
  | crash (n : Nat)
  | env (e : η)

def Label.acts (n : Nat) (xs : List χ) : List (Label χ η ι) :=
  xs.map (.act n)

-- The next action of a program, if any, meets a condition.
def Prog.Meets (C : Act → σ → Prop) (s : σ) : Prog Act Res ε α → Prop
  | call a _        => C a s
  | done _ | fail _ => True

-- The action that a program is about to perform.
def Prog.head : Prog Act Res ε α → Option Act
  | call a _        => some a
  | done _ | fail _ => none

theorem Prog.of_head {p : Prog Act Res ε α} (h : p.head = some a) : ∃ k, p = call a k := by
  cases p with
  | done | fail => cases h
  | call b k =>
    cases h
    exact ⟨k, rfl⟩

instance (C : Act → σ → Prop) [∀ a s, Decidable (C a s)] (s : σ) :
    (p : Prog Act Res ε α) → Decidable (p.Meets C s)
  | .call a _          => inferInstanceAs (Decidable (C a s))
  | .done _ | .fail _ => inferInstanceAs (Decidable True)

-- The process that takes the given step meets a condition with its next action.
def Config.Meets (C : Act → σ → Prop) (c : Config σ Act Res ε) : Label χ η ι → Prop
  | .act n _                     => ∀ p ∈ c.procs[n]?, p.Meets C c.shared
  | .spawn _ | .crash _ | .env _ => True

instance (C : Act → σ → Prop) [∀ a s, Decidable (C a s)] (c : Config σ Act Res ε) :
    (l : Label χ η ι) → Decidable (c.Meets C l)
  | .act n _ => match h : c.procs[n]? with
    | none   => isTrue (by simp [Config.Meets, h])
    | some p => decidable_of_iff (p.Meets C c.shared) (by simp [Config.Meets, h])
  | .spawn _ | .crash _ | .env _ => inferInstanceAs (Decidable True)

theorem Config.Meets.mono {C C' : Act → σ → Prop} {c : Config σ Act Res ε} {l : Label χ η ι}
    (m : c.Meets C l) (h : ∀ a s, C a s → C' a s) : c.Meets C' l := by
  cases l with
  | spawn | crash | env => trivial
  | act n x =>
    intro p hp
    cases p with
    | done | fail => trivial
    | call a k    => exact h a _ (m _ hp)

-- Every action meets a condition that holds anyway.
theorem Config.meets_of_forall {C : Act → σ → Prop} (h : ∀ a s, C a s) (c : Config σ Act Res ε)
    (l : Label χ η ι) : c.Meets C l := by
  cases l with
  | spawn | crash | env => trivial
  | act n x =>
    intro p _
    cases p with
    | done | fail => trivial
    | call a k    => exact h a c.shared

namespace System

variable (S : System σ Act Res ε χ η ι)

def next : Label χ η ι → Config σ Act Res ε → Option (Config σ Act Res ε)
  | .spawn i, c => some { c with procs := c.procs ++ [S.entry i] }
  | .act n x, c => match c.procs[n]? with
    | some (.call a k) => (S.exec a x c.shared).map fun (r, s) => ⟨s, c.procs.set n (k r)⟩
    | _                => none
  | .crash n, c => some { c with procs := c.procs.set n (.done ()) }
  | .env e, c => (S.env e c.shared).map fun s => { c with shared := s }

-- The configurations that are reached by steps all of which meet the condition `C`.
inductive Run (C : Act → σ → Prop) : Config σ Act Res ε → Config σ Act Res ε → Prop
  | refl : Run C c c
  | step : Run C c₁ c₂ → c₂.Meets C l → S.next l c₂ = some c₃ → Run C c₁ c₃

-- Follows a schedule for as long as its steps meet the condition `C`.
def play (C : Act → σ → Prop) [∀ a s, Decidable (C a s)] :
    List (Label χ η ι) → Config σ Act Res ε → Option (Config σ Act Res ε)
  | [], c       => some c
  | hd :: tl, c => if c.Meets C hd then (S.next hd c).bind (play C tl) else none

variable {S} {C : Act → σ → Prop}

-- A single step either leaves the state as it is, or is an event, or an action of a process.
theorem next_shared {c₁ c₂ : Config σ Act Res ε} {l : Label χ η ι} (m : c₁.Meets C l) (h : S.next l c₁ = some c₂) :
    c₂.shared = c₁.shared ∨ (∃ e, S.env e c₁.shared = some c₂.shared) ∨
    ∃ (n : Nat) (a : Act) (k : Except ε (Res a) → Prog Act Res ε Unit) (x : χ) (r : Except ε (Res a)),
      c₁.procs[n]? = some (.call a k) ∧ C a c₁.shared ∧
      S.exec a x c₁.shared = some (r, c₂.shared) := by
  cases l <;> simp only [next, Option.some.injEq] at h
  case spawn => exact .inl <| h ▸ rfl
  case crash => exact .inl <| h ▸ rfl
  case env e =>
    have ⟨s, hx, h⟩ := Option.map_eq_some_iff.mp h
    exact .inr <| .inl ⟨e, h ▸ hx⟩
  case act n x =>
    split at h
    case h_2 => contradiction
    case h_1 a k hp =>
      have ⟨⟨r, s⟩, hx, h⟩ := Option.map_eq_some_iff.mp h
      exact .inr <| .inr ⟨n, a, k, x, r, hp, m _ hp, h ▸ hx⟩

theorem Run.head (m : c₁.Meets C l) (h : S.next l c₁ = some c₂) (r : S.Run C c₂ c₃) :
    S.Run C c₁ c₃ := by
  induction r
  case refl            => exact .step .refl m h
  case step m' h' hi => exact .step hi m' h'

theorem Run.trans (r₁ : S.Run C c₁ c₂) (r₂ : S.Run C c₂ c₃) : S.Run C c₁ c₃ := by
  induction r₂
  case refl          => exact r₁
  case step m h hi => exact .step hi m h

-- A condition that is met by all steps of a run may be added to those that are required of them.
theorem Run.strengthen {C' : Act → σ → Prop} (r : S.Run C c₁ c₂)
    (h : ∀ c (l : Label χ η ι), S.Run C c₁ c → c.Meets C l → c.Meets C' l) : S.Run C' c₁ c₂ := by
  induction r
  case refl            => exact .refl
  case step r m hn hi => exact .step hi (h _ _ r m) hn

theorem Run.mono {C' : Act → σ → Prop} (r : S.Run C c₁ c₂) (h : ∀ a s, C a s → C' a s) :
    S.Run C' c₁ c₂ :=
  r.strengthen fun _ _ _ m => m.mono h

theorem Run.of_play [∀ a s, Decidable (C a s)] {c c' : Config σ Act Res ε} {ls : List (Label χ η ι)}
    (h : S.play C ls c = some c') : S.Run C c c' := by
  induction ls generalizing c <;> simp only [play] at h
  case nil => exact Option.some.inj h ▸ .refl
  case cons hd tl hi =>
    split at h
    case isFalse => contradiction
    case isTrue m =>
      have ⟨_, hn, ht⟩ := Option.bind_eq_some_iff.mp h
      exact .head m hn (hi ht)

-- A schedule demonstrates that a configuration with a certain property is reached.
theorem exists_run_of_play [∀ a s, Decidable (C a s)] {c : Config σ Act Res ε}
    {p : Config σ Act Res ε → Bool} (ls : List (Label χ η ι)) (h : (S.play C ls c).any p = true) :
    ∃ c', S.Run C c c' ∧ p c' = true := by
  have ⟨c', hc, hp⟩ := (Option.any_eq_true ..).mp h
  exact ⟨c', .of_play hc, hp⟩

-- A schedule that is followed by one more step.
theorem exists_step_of_play [∀ a s, Decidable (C a s)] {c : Config σ Act Res ε}
    {p : Config σ Act Res ε → Config σ Act Res ε → Bool} (ls : List (Label χ η ι))
    (l : Label χ η ι)
    (h : (S.play C ls c).any (fun c₁ => c₁.Meets C l && (S.next l c₁).any (p c₁)) = true) :
    ∃ c₁ c₂, S.Run C c c₁ ∧ c₁.Meets C l ∧ S.next l c₁ = some c₂ ∧ p c₁ c₂ = true := by
  have ⟨c₁, r, h⟩ := exists_run_of_play ls h
  have ⟨m, h⟩ := (Bool.and_eq_true ..).mp h
  have ⟨c₂, hn, hp⟩ := (Option.any_eq_true ..).mp h
  exact ⟨c₁, c₂, r, of_decide_eq_true m, hn, hp⟩

-- A schedule that is followed by another one.
theorem exists_later_of_play {B : Act → σ → Prop} [∀ a s, Decidable (C a s)]
    [∀ a s, Decidable (B a s)] {c : Config σ Act Res ε}
    {p : Config σ Act Res ε → Config σ Act Res ε → Bool} (ls ls' : List (Label χ η ι))
    (h : (S.play C ls c).any (fun c₁ => (S.play B ls' c₁).any (p c₁)) = true) :
    ∃ c₁ c₂, S.Run C c c₁ ∧ S.Run B c₁ c₂ ∧ p c₁ c₂ = true := by
  have ⟨c₁, r, h⟩ := exists_run_of_play ls h
  have ⟨c₂, r', hp⟩ := exists_run_of_play ls' h
  exact ⟨c₁, c₂, r, r', hp⟩

end System

end Concurrency
