import Mergepay.Groups.Membership

namespace Mergepay.Groups

open Concurrency

-- What the requests write

def GroupAction.writes : GroupAction → Bool
  | createMember _ _ | updateRole _ _ _ | deleteMember _ _ | incrementUses _ | createAudit _ => true
  | now | findMember _ _ | findGroup _ | findInvite _ | countAdmins _ | countMembers _       => false

-- A request changes at most one membership.
inductive GroupWrites : List GroupAction → Prop
  | nothing : GroupWrites []
  | removed : GroupWrites [.deleteMember g u, .createAudit row]
  | changed : GroupWrites [.updateRole g u role, .createAudit row]
  | joined : GroupWrites
    [.createMember { groupId := g, userId := u, role := "member" } inviteId, .incrementUses inviteId,
      .createAudit row]

def written (log : Log GroupAction GroupAction.Answer Failure) : List GroupAction :=
  log.performed.filter (·.writes)

theorem effect_of_reads (a : GroupAction) (s : GroupStore) (h : a.writes = false) :
    groupDatabase.effect a s = s ∧ groupDatabase.admits a s = true := by
  cases a <;> first | exact ⟨rfl, rfl⟩ | cases h

section

variable {log : Log GroupAction GroupAction.Answer Failure} {s : GroupStore}

theorem view_written : groupDatabase.view log s = (written log).foldl (fun s a => groupEffect a s) s :=
  Database.view_filter effect_of_reads

theorem admitted_written (h : groupDatabase.admitted log s = true) :
    groupDatabase.allowed (written log) s = true :=
  Database.admitted_filter effect_of_reads ▸ h

end

-- The access checks only read.

abbrev Nothing (p : GroupTx α) : Prop :=
  p.Leaves (·.writes) fun _ as => as = []

theorem requireMembership_leaves : Nothing (requireMembership g u) := by
  refine .read_bind rfl fun member => ?_
  split
  case h_1 => exact .done rfl
  case h_2 =>
    refine .read_bind rfl fun group => ?_
    split
    case h_1 => exact .fail
    case h_2 =>
      simp only [Prog.bind_eq, Prog.throw_eq, Prog.fail_bind]
      split <;> exact .fail

theorem requireAdmin_leaves : Nothing (requireAdmin g u) :=
  requireMembership_leaves.nothing_bind fun _ => .ofExcept fun _ _ => rfl

theorem requireActiveAdmin_leaves : Nothing (requireActiveAdmin g u) :=
  requireAdmin_leaves.nothing_bind fun _ => .read_bind rfl fun _ => .ofExcept fun _ _ => rfl

theorem checkLastAdmin_leaves : Nothing (checkLastAdmin g e) := by
  refine .read_bind rfl fun n => ?_
  split
  · exact .fail
  · exact .done rfl

theorem findTarget_leaves : Nothing (findTarget g u) := by
  refine .read_bind rfl fun member => ?_
  split
  · exact .fail
  · exact .done rfl

abbrev Written (p : GroupTx Unit) : Prop :=
  p.Leaves (·.writes) fun _ => GroupWrites

theorem writeRole_leaves : Written (writeRole a g u previous role) :=
  .write_bind rfl fun _ => .perform fun _ => .changed

theorem leaveGroup_leaves : Written (leaveGroup g u) := by
  refine requireMembership_leaves.nothing_bind fun _ => requireMembership_leaves.nothing_bind fun member => ?_
  refine .nothing_bind ?_ fun _ => .write_bind rfl fun _ => .perform fun _ => .removed
  unfold checkLeave
  split
  case isFalse => exact .done rfl
  case isTrue =>
    refine .read_bind rfl fun n => .read_bind rfl fun m => ?_
    split
    · exact .fail
    · exact .done rfl

theorem updateMember_leaves : Written (updateMember a g u role) :=
  requireActiveAdmin_leaves.nothing_bind fun _ => requireAdmin_leaves.nothing_bind fun _ =>
    findTarget_leaves.nothing_bind fun _ => writeRole_leaves

theorem setRole_leaves : Written (setRole a g u role e) := by
  refine requireAdmin_leaves.nothing_bind fun _ => findTarget_leaves.nothing_bind fun target => ?_
  simp only [Prog.bind_eq, Prog.pure_eq]
  split
  case isTrue  => exact .done .nothing
  case isFalse =>
    split
    case isTrue  => exact checkLastAdmin_leaves.nothing_bind fun _ => writeRole_leaves
    case isFalse => exact writeRole_leaves

theorem removeGroupMember_leaves : Written (removeGroupMember a g u) := by
  refine requireActiveAdmin_leaves.nothing_bind fun _ => ?_
  simp only [Prog.bind_eq, Prog.throw_eq, Prog.fail_bind]
  split
  case isTrue  => exact .fail
  case isFalse =>
    refine requireAdmin_leaves.nothing_bind fun _ => findTarget_leaves.nothing_bind fun target => ?_
    refine .nothing_bind ?_ fun _ => .write_bind rfl fun _ => .perform fun _ => .removed
    unfold checkRemove
    split
    case isTrue  => exact checkLastAdmin_leaves
    case isFalse => exact .done rfl

theorem joinGroup_leaves : Written (joinGroup u code) := by
  refine .read_bind rfl fun _ => .read_bind rfl fun _ => .nothing_bind (.ofExcept fun _ _ => rfl) fun i => ?_
  refine .read_bind rfl fun existing => ?_
  split
  case isFalse => exact .done .nothing
  case isTrue  => exact .write_bind rfl fun _ => .write_bind rfl fun _ => .perform fun _ => .joined

theorem groupRequest_leaves (i : GroupRequest) : Written (groupRequest i) := by
  cases i with
  | leave                 => exact leaveGroup_leaves
  | updateMember          => exact updateMember_leaves
  | changeMemberRole      => exact requireActiveAdmin_leaves.nothing_bind fun _ => setRole_leaves
  | modifyGroupMemberRole => exact setRole_leaves
  | removeGroupMember     => exact removeGroupMember_leaves
  | join                  => exact joinGroup_leaves

end Mergepay.Groups
