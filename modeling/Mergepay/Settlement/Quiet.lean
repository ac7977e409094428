import Mergepay.Settlement.Attempts

namespace Mergepay

open Concurrency

-- A program that neither claims nor moves any settlement.
abbrev Quiet (p : M α) : Prop :=
  p.Avoids Act.Reserved

theorem act_quiet (ha : ¬a.Reserved) : Quiet (act a) :=
  .perform ha

theorem lift_quiet (x : Except Failure α) : Quiet (lift x) := by
  cases x with
  | ok a    => exact .done a
  | error e => exact .fail e

theorem requireMembership_quiet : Quiet (requireMembership g u) := by
  refine .bind (act_quiet id) fun m => ?_
  cases m with
  | some m => exact .done _
  | none =>
    refine .bind (act_quiet id) fun g => ?_
    cases g with
    | none   => exact .fail _
    | some g =>
      dsimp only
      split <;> exact .fail _

theorem requireActiveMembership_quiet : Quiet (requireActiveMembership g u) := by
  refine .bind requireMembership_quiet fun m => .bind (act_quiet id) fun g => ?_
  dsimp only
  split
  case isTrue  => exact .fail _
  case isFalse => exact .done _

theorem runIdempotent_quiet {op : M Unit} (h : Quiet op) : Quiet (runIdempotent scope key op) := by
  cases key with
  | none     => exact h
  | some key =>
    refine .bind (act_quiet id) fun b => ?_
    cases b with
    | false => exact .done _
    | true  => exact h

section Requests

variable {D : Deps}

theorem refineStellarAsset_quiet : Quiet (refineStellarAsset D c i) := by
  refine .bind (lift_quiet _) fun r => ?_
  cases r with
  | ok a    => exact .done _
  | error e => exact .fail _

theorem buildSettlementXdr_quiet : Quiet (buildSettlementXdr D k c i amount) := by
  refine .bind refineStellarAsset_quiet fun _ => .bind (.attempt <| act_quiet id) fun a => ?_
  cases a with
  | error e => exact .fail _
  | ok a =>
    dsimp only
    split
    case h_1 => exact .done _
    case h_2 => exact .fail _

theorem validateSettlementXdr_quiet : Quiet (validateSettlementXdr D xdr s) :=
  .bind (act_quiet id) fun _ => .bind (act_quiet id) fun _ => .bind (act_quiet id) fun _ => lift_quiet _

theorem createExpense_quiet : Quiet (createExpense D u g p c i shares) := by
  have rest : Quiet (Prog.bind (Prog.forEach (fun share : String × Int => do
      if (← act (.findMembership g share.1)).isNone then
        throw <| Failure.badRequest "invalid_split" "Every split participant must be an active group member") shares)
      fun _ => (requireActiveMembership g u).bind fun _ => act <| .createExpense
        { id := "", groupId := g, payerUserId := p.getD u, assetCode := c, assetIssuer := i, createdAt := 0 }
        shares) := by
    refine .bind (.forEach (fun share => .bind (act_quiet id) fun m => ?_) _) fun _ =>
      .bind requireActiveMembership_quiet fun _ => act_quiet id
    split
    case isTrue  => exact .fail _
    case isFalse => exact .done _
  unfold createExpense
  refine .bind requireActiveMembership_quiet fun _ => .bind (lift_quiet _) fun _ => ?_
  dsimp only
  split
  case isFalse => exact rest
  case isTrue =>
    refine .bind (act_quiet id) fun m => ?_
    split
    case isTrue  => exact .fail _
    case isFalse => exact rest

theorem deleteExpense_quiet : Quiet (deleteExpense u e) := by
  unfold deleteExpense
  refine .bind (act_quiet id) fun e => ?_
  cases e with
  | none   => exact .fail _
  | some e =>
    refine .bind requireActiveMembership_quiet fun m => ?_
    simp only [Prog.bind_eq, Prog.throw_eq, Prog.fail_bind]
    split
    case isTrue => exact .fail _
    case isFalse =>
      split
      case isTrue  => exact .fail _
      case isFalse => exact act_quiet id

theorem validate_quiet {body : SettleExpenseBody} : Quiet (body.validate D) := by
  unfold SettleExpenseBody.validate
  split
  case h_1 =>
    split
    case isTrue  => exact .fail _
    case isFalse => exact .done _
  case h_2 => exact refineStellarAsset_quiet

-- The settlements that are created here have not been submitted.
theorem settleExpense_quiet : Quiet (settleExpense D u i body key) := by
  unfold settleExpense
  simp only [Prog.bind_eq, Prog.throw_eq, Prog.fail_bind, Prog.pure_eq]
  refine .bind validate_quiet fun _ => .bind (act_quiet id) fun e => ?_
  cases e with
  | none   => exact .fail _
  | some e =>
    refine .bind requireActiveMembership_quiet fun _ => .bind (act_quiet id) fun m => ?_
    split
    case isTrue => exact .fail _
    case isFalse =>
      split
      case h_2 => exact .fail _
      case h_1 share _ =>
        split
        case isTrue => exact .fail _
        case isFalse =>
          split
          case isTrue => exact .fail _
          case isFalse =>
            split
            case h_1 => exact .fail _
            case h_2 =>
              refine runIdempotent_quiet <| .bind (act_quiet id) fun fresh => ?_
              split
              case isTrue => exact .fail _
              case isFalse =>
                cases key
                case' none     => refine .bind (.done none) fun existing => ?_
                case' some key => refine .bind (act_quiet id) fun existing => ?_
                all_goals
                  split
                  case isFalse => exact .done _
                  refine .bind (act_quiet id) fun _ => .bind (act_quiet id) fun _ => .bind (act_quiet id) fun _ => ?_
                  exact .bind buildSettlementXdr_quiet fun _ => act_quiet fun h => h rfl

theorem settleGroup_quiet : Quiet (settleGroup D u g body key) := by
  unfold settleGroup
  simp only [Prog.bind_eq, Prog.throw_eq, Prog.pure_eq]
  split
  case h_2 => exact .fail _
  case h_1 amount _ =>
    simp only [Prog.done_bind]
    refine .bind refineStellarAsset_quiet fun _ => .bind requireActiveMembership_quiet fun _ => ?_
    split
    case isTrue => exact .fail _
    case isFalse =>
      refine .bind (act_quiet id) fun m => ?_
      split
      case isTrue => exact .fail _
      case isFalse =>
        refine runIdempotent_quiet <| .bind (act_quiet id) fun _ => .bind (act_quiet id) fun _ => ?_
        refine .bind (lift_quiet _) fun _ => .bind (act_quiet id) fun _ => .bind (act_quiet id) fun _ => ?_
        exact .bind (act_quiet id) fun _ => .bind buildSettlementXdr_quiet fun _ => act_quiet fun h => h rfl

theorem execute_quiet : Quiet (execute D u i xdr key) := by
  unfold execute
  simp only [Prog.bind_eq, Prog.throw_eq, Prog.fail_bind, Prog.pure_eq]
  refine runIdempotent_quiet <| .bind (act_quiet id) fun row => ?_
  cases row with
  | none     => exact .fail _
  | some row =>
    refine .bind requireActiveMembership_quiet fun _ => ?_
    split
    case isTrue => exact .fail _
    case isFalse =>
      refine .bind validateSettlementXdr_quiet fun _ => .bind (act_quiet id) fun s => ?_
      cases s with
      | none   => exact .fail _
      | some s =>
        dsimp only
        split
        case isFalse => exact .done _
        case isTrue  => exact .bind (act_quiet id) fun _ => .bind (act_quiet id) fun _ => .done _

theorem expireStaleSettlementIntents_quiet : Quiet expireStaleSettlementIntents :=
  .bind (act_quiet id) fun _ => .bind (act_quiet id) fun rows =>
    .forEach (fun _ => .bind (act_quiet id) fun _ => .done _) rows

end Requests

section Verification

end Verification

end Mergepay
