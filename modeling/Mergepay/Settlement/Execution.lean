import Mergepay.Settlement.Actions

namespace Mergepay

open Table

-- The link to a share is cleared when the share is deleted.
def Settlement.unlink (s : Settlement) : Settlement :=
  { s with expenseShareId := none }

def ExpenseShare.setStatus (status : ShareStatus) (s : ExpenseShare) : ExpenseShare :=
  { s with status }

namespace World

variable (w : World)

def Fresh (ids : List String) : Prop :=
  ids.Nodup ∧ ∀ id ∈ ids, id ∉ w.allocated

instance : DecidablePred w.Fresh :=
  fun _ => inferInstanceAs (Decidable (_ ∧ _))

def allocate (ids : List String) : World :=
  { w with allocated := ids ++ w.allocated }

-- The payer's own share is settled from the beginning.
def newShare (expenseId payerUserId id : String) (data : String × Int) : ExpenseShare := {
  id, expenseId
  userId      := data.1
  shareAmount := data.2
  status      := if data.1 = payerUserId then .settled else .pending
}

def insertExpense (e : Expense) (shares : List (String × Int)) (id : String) (ids : List String) :
    World := { w with
  expenses := w.expenses ++ [{ e with id, createdAt := w.now }]
  shares   := w.shares ++ List.zipWith (newShare id e.payerUserId) ids shares
}

-- Shares are deleted along with their expense.
def removeExpense (id : String) : World := { w with
  expenses    := w.expenses.filter (·.id ≠ id)
  shares      := w.shares.filter (·.expenseId ≠ id)
  settlements := update (fun s => s.expenseShareId.any fun i => i ∈ (w.sharesOf id).map (·.id))
    Settlement.unlink w.settlements
}

def newSettlement (s : Settlement) (id : String) : Settlement :=
  { s with id, createdAt := w.now, updatedAt := w.now }

def insertSettlement (s : Settlement) (id : String) : World :=
  { w with settlements := w.settlements ++ [w.newSettlement s id] }

def setShareStatus (id : String) (status : ShareStatus) : World :=
  { w with shares := update (·.id = id) (·.setStatus status) w.shares }

def patchSettlements (p : Settlement → Bool) (data : Patch) : World :=
  { w with settlements := update p (·.patch data w.now) w.settlements }

def apply (hash : String) (record : TransactionRecord) (successful : Bool) : World :=
  { w with ledger := w.ledger ++ [{ hash, successful, record }] }

-- The unique indices of the settlement table. Entries with a missing value are never equal.
def Duplicates (s : Settlement) : Prop :=
  ∃ s' ∈ w.settlements, s'.shortCode = s.shortCode ∨
    s'.expenseShareId.isSome ∧ s'.idempotencyKey.isSome ∧
    s'.expenseShareId = s.expenseShareId ∧ s'.idempotencyKey = s.idempotencyKey

instance : DecidablePred w.Duplicates :=
  fun _ => inferInstanceAs (Decidable (∃ s' ∈ w.settlements, _))

-- The effect of a transition. The share is updated in the same transaction, so that its absence
-- undoes the update of the settlement as well.
def transition (t : Transition) : Except Failure Nat × World :=
  if w.settlements.any t.applies then
    let count := w.settlements.countP t.applies
    let w' := w.patchSettlements t.applies t.data
    match t.settledShare with
    | none    => (.ok count, w')
    | some id =>
      if (w.share id).isSome
      then (.ok count, w'.setShareStatus id .settled)
      else (.error recordNotFound, w)
  else
    (.ok 0, w)

def update (u : Write) : Except Failure Nat × World :=
  if u.requiresRow ∧ ¬w.settlements.any u.applies
  then (.error recordNotFound, w)
  else (.ok (w.settlements.countP u.applies), w.patchSettlements u.applies u.data)

end World

section

variable {α : Type}

-- The possible outcomes of a read.
def answer (r : α) (w : World) : Choice → Option (Except Failure α × World)
  | .ok      => some (.ok r, w)
  | .fails e => some (.error e, w)
  | _        => none

-- The possible outcomes of a write with effect `o`.
def perform (o : Except Failure α × World) (w : World) : Choice → Option (Except Failure α × World)
  | .ok      => some o
  | .fails e => some (.error e, w)
  | .lost e  => some (.error e, o.2)
  | _        => none

-- An insertion is given the identifiers for its rows.
def insertion (c : List String → Option (Except Failure α × World)) (w : World) :
    Choice → Option (Except Failure α × World)
  | .texts ids => if w.Fresh ids then (c ids).map fun (r, w') => (r, w'.allocate ids) else none
  | .fails e   => some (.error e, w)
  | _          => none

end

namespace Deps

variable (D : Deps)

def badSequence : Failure :=
  .provider .rejected "Stellar rejected the transaction: tx_bad_seq"

-- An envelope is applied at most once.
def submit (xdr : String) (w : World) : Choice → Option (Except Failure String × World)
  | .fails e => some (.error e, w)
  | .ok      => if (w.transaction (D.hashOf xdr)).isSome then some (.error badSequence, w) else none
  | .applied successful answer =>
    if (w.transaction (D.hashOf xdr)).isSome then none else
      let r := match answer, successful with
        | none, true  => .ok (D.hashOf xdr)
        | none, false => .error <| .provider .rejected "Stellar rejected the transaction"
        | some e, _   => .error e
      some (r, w.apply (D.hashOf xdr) (D.recordOf xdr) successful)
  | _ => none

def exec : (a : Act) → Choice → World → Option (Except Failure a.Res × World)
  | .clock, x, w                => answer w.now w x
  | .shortCode, x, w            => match x with
    | .texts [s] => some (.ok s, w)
    | _          => none
  | .reserve _ _, x, w          => match x with
    | .reserved b => some (.ok b, w)
    | .fails e    => some (.error e, w)
    | _           => none
  | .retryDelay _, x, w         => match x with
    | .time t => some (.ok t, w)
    | _       => none
  | .findExpense id, x, w       => answer (w.expenseWithShares id) w x
  | .findShare id, x, w         => answer (w.share id) w x
  | .findMembership g u, x, w   => answer (w.membership g u) w x
  | .findGroup g, x, w          => answer (row? (·.id) w.groups g) w x
  | .publicKey u, x, w          => answer (w.publicKey u) w x
  | .findSettlement id, x, w    => answer (w.settlement id) w x
  | .findDuplicate i key, x, w  =>
    answer (w.settlements.find? fun s => s.expenseShareId = some i ∧ s.idempotencyKey = some key ∧
      s.status ≠ .failed) w x
  | .findSettlements q, x, w    => answer (q.run D.workerBatchSize w.settlements) w x
  | .limitExpenses g i j, x, w  => answer (w.limitExpenses g i j) w x
  | .limitSettlements g i j, x, w => answer (w.limitSettlements g i j) w x
  | .countOutstanding id, x, w  =>
    answer ((w.sharesOf id).countP (·.status ≠ .settled)) w x
  | .createExpense e shares, x, w => x |> insertion (fun
    | id :: ids => if ids.length = shares.length
      then some (.ok (), w.insertExpense e shares id ids)
      else none
    | [] => none) w
  | .deleteExpense id, x, w     => perform (.ok (), w.removeExpense id) w x
  | .createLinked s _, x, w     => x |> insertion (fun
    | [id] => match s.expenseShareId with
      | none         => none
      | some shareId =>
        if (w.share shareId).isNone then
          some (.error World.foreignKeyViolation, w)
        else if w.Duplicates s then
          some (.error World.uniqueViolation, w)
        else
          some (.ok (), (w.insertSettlement s id).setShareStatus shareId .settling)
    | _ => none) w
  | .createFreeform s _, x, w   => x |> insertion (fun
    | [id] => match s.expenseShareId with
      | some _ => none
      | none   => if w.Duplicates s
        then some (.error World.uniqueViolation, w)
        else some (.ok (), w.insertSettlement s id)
    | _ => none) w
  | .transition t, x, w         => perform (w.transition t) w x
  | .update u, x, w             => perform (w.update u) w x
  | .settleShare id, x, w       => if (w.share id).isSome
    then perform (.ok (), w.setShareStatus id .settled) w x
    else perform (.error World.recordNotFound, w) w x
  | .loadAccount _, x, w        => match x with
    | .account a => some (.ok a, w)
    | .fails e   => some (.error e, w)
    | _          => none
  | .submit _ xdr, x, w         => D.submit xdr w x
  | .getTransaction h, x, w     => match x with
    | .unseen => some (.ok none, w)
    | x       => answer ((w.transaction h).map (·.successful)) w x
  | .getTransactionFromHorizon h, x, w => match x with
    | .unseen => some (.ok none, w)
    | x       => answer (w.transaction h) w x
  | .getTransactionPayments h, x, w => match w.transaction h, x with
    | some t, .ok  => some (.ok (t.record.operations.filter (·.type = "payment")), w)
    | _, .fails e  => some (.error e, w)
    | _, _         => none

def env : Event → World → Option World
  | .tick t, w      => if w.now ≤ t then some { w with now := t } else none
  | .join m, w      => some { w with members := m :: w.members }
  | .leave g u, w   => some { w with
      members := w.members.filter fun m => ¬(m.groupId = g ∧ m.userId = u) }
  | .apply xdr b, w => if (w.transaction (D.hashOf xdr)).isSome then none else
      some (w.apply (D.hashOf xdr) (D.recordOf xdr) b)

end Deps

-- What an action has done to the world.
inductive Effect (D : Deps) (w : World) : Act → World → Prop
  | none : Effect D w a w
  | allocate (ids : List String) : Effect D w a (w.allocate ids)
  | createExpense {ids : List String} :
    w.Fresh (n :: ids) → ids.length = shares.length →
    Effect D w (.createExpense e shares) ((w.insertExpense e shares n ids).allocate (n :: ids))
  | deleteExpense : Effect D w (.deleteExpense i) (w.removeExpense i)
  | createLinked :
    w.Fresh [n] → s.expenseShareId = some i → (w.share i).isSome → ¬w.Duplicates s →
    Effect D w (.createLinked s o)
      (((w.insertSettlement s n).setShareStatus i .settling).allocate [n])
  | createFreeform :
    w.Fresh [n] → s.expenseShareId = .none → ¬w.Duplicates s →
    Effect D w (.createFreeform s reads) ((w.insertSettlement s n).allocate [n])
  | transition : t.settledShare = .none →
    Effect D w (.transition t) (w.patchSettlements t.applies t.data)
  | settle : t.settledShare = some i → (w.share i).isSome → w.settlements.any t.applies →
    Effect D w (.transition t) ((w.patchSettlements t.applies t.data).setShareStatus i .settled)
  | update : Effect D w (.update u) (w.patchSettlements u.applies u.data)
  | settleShare : Effect D w (.settleShare i) (w.setShareStatus i .settled)
  | submit : w.transaction (D.hashOf xdr) = .none →
    Effect D w (.submit i xdr) (w.apply (D.hashOf xdr) (D.recordOf xdr) b)

namespace Effect

variable {D : Deps} {w w' : World}

theorem of_answer (h : answer v w x = some (r, w')) : Effect D w a w' := by
  cases x <;> simp only [answer, Option.some.injEq, Prod.mk.injEq, reduceCtorEq] at h
  case ok    => exact h.2 ▸ none
  case fails => exact h.2 ▸ none

theorem of_perform {o : Except Failure α × World} (h : perform o w x = some (r, w'))
    (ho : Effect D w a o.2) : Effect D w a w' := by
  cases x <;> simp only [perform, Option.some.injEq, Prod.mk.injEq, reduceCtorEq] at h
  case ok    => subst h; exact ho
  case fails => exact h.2 ▸ none
  case lost  => exact h.2 ▸ ho

theorem of_insertion (h : insertion c w x = some (r, w'))
    (hc : ∀ ids r w₁, w.Fresh ids → c ids = some (r, w₁) → Effect D w a (w₁.allocate ids)) :
    Effect D w a w' := by
  cases x <;> simp only [insertion, Option.some.injEq, Prod.mk.injEq, reduceCtorEq] at h
  case fails => exact h.2 ▸ none
  case texts ids =>
    split at h
    case isFalse => contradiction
    case isTrue hf =>
      have ⟨⟨r', w₁⟩, hi, h⟩ := Option.map_eq_some_iff.mp h
      simp only [Prod.mk.injEq] at h
      exact h.2 ▸ hc ids r' w₁ hf hi

theorem of_transition : Effect D w (.transition t) (w.transition t).2 := by
  simp only [World.transition]
  split
  case isFalse => exact none
  case isTrue ha =>
    split
    case h_1 h => exact transition h
    case h_2 h =>
      split
      case isTrue hs => exact settle h hs ha
      case isFalse   => exact none

theorem of_update : Effect D w (.update u) (w.update u).2 := by
  simp only [World.update]
  split
  case isTrue  => exact none
  case isFalse => exact update

theorem of_exec (h : D.exec a x w = some (r, w')) : Effect D w a w' := by
  cases a <;> simp only [Deps.exec] at h
  case shortCode | reserve | retryDelay | loadAccount =>
    split at h <;> simp only [Option.some.injEq, Prod.mk.injEq, reduceCtorEq] at h
    all_goals exact h.2 ▸ none
  case getTransaction | getTransactionFromHorizon =>
    split at h
    case h_1 => exact (Prod.mk.inj <| Option.some.inj h).2 ▸ none
    case h_2 => exact of_answer h
  case getTransactionPayments =>
    split at h <;> simp only [Option.some.injEq, Prod.mk.injEq, reduceCtorEq] at h
    all_goals exact h.2 ▸ none
  case createExpense e shares =>
    refine of_insertion h fun ids r w₁ hf h => ?_
    split at h
    case h_2 => contradiction
    case h_1 =>
      split at h
      case isFalse   => contradiction
      case isTrue hl => exact (Prod.mk.inj <| Option.some.inj h).2 ▸ createExpense hf hl
  case deleteExpense => exact of_perform h deleteExpense
  case createLinked s o =>
    refine of_insertion h fun ids r w₁ hf h => ?_
    split at h
    case h_2 => contradiction
    case h_1 =>
      split at h
      case h_1 => contradiction
      case h_2 hi =>
        split at h
        case isTrue => exact (Prod.mk.inj <| Option.some.inj h).2 ▸ allocate _
        case isFalse hs =>
          split at h
          case isTrue => exact (Prod.mk.inj <| Option.some.inj h).2 ▸ allocate _
          case isFalse hd =>
            refine (Prod.mk.inj <| Option.some.inj h).2 ▸ createLinked hf hi ?_ hd
            simpa [Option.isSome_iff_ne_none] using hs
  case createFreeform s reads =>
    refine of_insertion h fun ids r w₁ hf h => ?_
    split at h
    case h_2 => contradiction
    case h_1 =>
      split at h
      case h_1 => contradiction
      case h_2 hi =>
        split at h
        case isTrue     => exact (Prod.mk.inj <| Option.some.inj h).2 ▸ allocate _
        case isFalse hd => exact (Prod.mk.inj <| Option.some.inj h).2 ▸ createFreeform hf hi hd
  case transition => exact of_perform h of_transition
  case update     => exact of_perform h of_update
  case settleShare =>
    split at h
    case isTrue  => exact of_perform h settleShare
    case isFalse => exact of_perform h none
  case submit i xdr =>
    cases x <;> simp only [Deps.submit, Option.some.injEq, Prod.mk.injEq, reduceCtorEq] at h
    case fails => exact h.2 ▸ none
    case ok =>
      split at h
      case isTrue  => exact (Prod.mk.inj <| Option.some.inj h).2 ▸ none
      case isFalse => contradiction
    case applied =>
      split at h
      case isTrue => contradiction
      case isFalse hn =>
        exact (Prod.mk.inj <| Option.some.inj h).2 ▸ submit (by simpa using hn)
  all_goals exact of_answer h

end Effect

end Mergepay
