import Mergepay.Concurrency.Transaction
import Mergepay.Data.Table
import Mergepay.Errors
import Mergepay.Money.Asset
import Mergepay.Schema

namespace Mergepay.Groups

open Concurrency Money

structure Invite where
  id        : String
  groupId   : String
  code      : String
  expiresAt : Option Time := none
  maxUses   : Option Nat := none
  uses      : Nat := 0
  deriving DecidableEq

structure GroupAudit where
  userId     : String
  groupId    : String
  action     : String
  entityType : String
  entityId   : String
  metadata   : List (String × String) := []
  deriving DecidableEq

-- A membership, along with the invite by which it has been created. Unlike a member, it is not removed
-- when somebody leaves.
structure Joining where
  inviteId : String
  userId   : String
  deriving DecidableEq

structure GroupStore where
  now      : Time := 0
  groups   : List Group := []
  members  : List GroupMember := []
  invites  : List Invite := []
  audits   : List GroupAudit := []
  joinings : List Joining := []
  deriving DecidableEq

namespace GroupStore

variable (s : GroupStore)

def member (groupId userId : String) : Option GroupMember :=
  s.members.find? fun m => m.groupId = groupId ∧ m.userId = userId

def countMembers (groupId : String) : Nat :=
  s.members.countP (·.groupId = groupId)

def countAdmins (groupId : String) : Nat :=
  s.members.countP fun m => m.groupId = groupId ∧ m.role = "admin"

end GroupStore

inductive GroupAction
  | now
  | findMember (groupId userId : String)
  | findGroup (id : String)
  | findInvite (code : String)
  | countAdmins (groupId : String)
  | countMembers (groupId : String)
  | createMember (row : GroupMember) (inviteId : String)
  | updateRole (groupId userId role : String)
  | deleteMember (groupId userId : String)
  | incrementUses (inviteId : String)
  | createAudit (row : GroupAudit)
  deriving DecidableEq

abbrev GroupAction.Answer : GroupAction → Type
  | now                             => Time
  | findMember _ _                  => Option GroupMember
  | findGroup _                     => Option Group
  | findInvite _                    => Option Invite
  | countAdmins _ | countMembers _  => Nat
  | createMember _ _ | updateRole _ _ _ | deleteMember _ _ | incrementUses _ | createAudit _ => Unit

-- A statement may fail, because the connection is lost.
inductive GroupChoice
  | plain
  | lost
  deriving DecidableEq

-- Users are members of a group only once. All other writes need a row that exists.
def groupAdmits : GroupAction → GroupStore → Bool
  | .createMember row _, s => (s.member row.groupId row.userId).isNone
  | .updateRole g u _, s   => (s.member g u).isSome
  | .deleteMember g u, s   => (s.member g u).isSome
  | .incrementUses id, s   => id ∈ s.invites.map (·.id)
  | _, _                   => true

def groupEffect : GroupAction → GroupStore → GroupStore
  | .createMember row inviteId, s => { s with
    members  := s.members ++ [row]
    joinings := s.joinings ++ [⟨inviteId, row.userId⟩]
  }
  | .updateRole g u role, s       => { s with
    members := Table.update (fun m => m.groupId = g ∧ m.userId = u) ({ · with role }) s.members }
  | .deleteMember g u, s          => { s with
    members := s.members.filter fun m => ¬(m.groupId = g ∧ m.userId = u) }
  | .incrementUses id, s          => { s with
    invites := Table.update (·.id = id) (fun i => { i with uses := i.uses + 1 }) s.invites }
  | .createAudit row, s           => { s with audits := s.audits ++ [row] }
  | _, s                          => s

def groupAnswer : (a : GroupAction) → GroupChoice → GroupStore → Option (Except Failure a.Answer)
  | _, .lost, _               => some (.error World.connectionClosed)
  | .now, _, s                => some (.ok s.now)
  | .findMember g u, _, s     => some (.ok (s.member g u))
  | .findGroup id, _, s       => some (.ok (Table.row? (·.id) s.groups id))
  | .findInvite code, _, s    => some (.ok (Table.row? (·.code) s.invites code))
  | .countAdmins g, _, s      => some (.ok (s.countAdmins g))
  | .countMembers g, _, s     => some (.ok (s.countMembers g))
  | .createMember row i, _, s =>
    some (if groupAdmits (.createMember row i) s then .ok () else .error World.uniqueViolation)
  | .updateRole g u role, _, s =>
    some (if groupAdmits (.updateRole g u role) s then .ok () else .error World.recordNotFound)
  | .deleteMember g u, _, s   =>
    some (if groupAdmits (.deleteMember g u) s then .ok () else .error World.recordNotFound)
  | .incrementUses id, _, s   =>
    some (if groupAdmits (.incrementUses id) s then .ok () else .error World.recordNotFound)
  | .createAudit _, _, _      => some (.ok ())

def groupDatabase : Database GroupStore GroupAction GroupAction.Answer Failure GroupChoice where
  answer := groupAnswer
  effect := groupEffect
  admits := groupAdmits
  commit := fun
    | .plain => some (.ok ())
    | .lost  => some (.error World.connectionClosed)

def groupEnv (t : Time) (s : GroupStore) : Option GroupStore :=
  if s.now ≤ t then some { s with now := t } else none

abbrev GroupTx (α : Type) :=
  Prog GroupAction GroupAction.Answer Failure α

-- The access checks

def requireMembership (groupId userId : String) : GroupTx GroupMember := do
  match ← Prog.perform (GroupAction.findMember groupId userId) with
  | some member => return member
  | none        =>
    match ← Prog.perform (GroupAction.findGroup groupId) with
    | none       => throw <| .notFound "Group not found"
    | some group =>
      if group.archived then
        throw <| .forbidden "Group is archived"
      throw <| .forbidden "You are not a member of this group"

def checkAdmin (member : GroupMember) : Except Failure Unit :=
  if member.role = "admin" then .ok ()
  else .error <| .forbidden "Only a group admin can perform this action"

def requireAdmin (groupId userId : String) : GroupTx Unit := do
  let member ← requireMembership groupId userId
  Prog.ofExcept (checkAdmin member)

def checkActive (group : Option Group) : Except Failure Unit :=
  if group.any (·.archived) then .error <| .forbidden "Group is archived" else .ok ()

def requireActiveAdmin (groupId userId : String) : GroupTx Unit := do
  requireAdmin groupId userId
  let group ← Prog.perform (GroupAction.findGroup groupId)
  Prog.ofExcept (checkActive group)

-- The requests. What a handler reads before it opens its transaction is treated as part of it. This
-- makes no difference at the isolation level of the database, because every statement sees what has
-- been committed by then, and because a transaction that raises leaves no traces.

-- The guard of those who leave on their own.
def abandons (adminCount totalCount : Nat) : Bool :=
  adminCount = 1 ∧ totalCount > 1

-- The guard of those who remove or demote an admin.
def isLastAdmin (adminCount : Nat) : Bool :=
  adminCount ≤ 1

def checkLeave (groupId : String) (member : GroupMember) : GroupTx Unit :=
  if member.role = "admin" then do
    let adminCount ← Prog.perform (GroupAction.countAdmins groupId)
    let totalCount ← Prog.perform (GroupAction.countMembers groupId)
    if abandons adminCount totalCount then
      throw <| .conflict "last_admin" "Promote another member to admin before leaving"
  else
    .done ()

def checkLastAdmin (groupId : String) (failure : Failure) : GroupTx Unit := do
  let adminCount ← Prog.perform (GroupAction.countAdmins groupId)
  if isLastAdmin adminCount then
    throw failure

def leaveGroup (groupId userId : String) : GroupTx Unit := do
  let _ ← requireMembership groupId userId
  let member ← requireMembership groupId userId
  checkLeave groupId member
  Prog.perform (GroupAction.deleteMember groupId userId)
  Prog.perform <| GroupAction.createAudit {
    userId, groupId
    action     := "group.leave"
    entityType := "group"
    entityId   := groupId
  }

def findTarget (groupId userId : String) : GroupTx GroupMember := do
  match ← Prog.perform (GroupAction.findMember groupId userId) with
  | none        => throw <| .notFound "Member not found in this group"
  | some member => return member

def auditGroupMemberAction (userId groupId memberId action : String)
    (metadata : List (String × String)) : GroupTx Unit :=
  Prog.perform <| GroupAction.createAudit {
    userId, groupId, action, metadata
    entityType := "group_member"
    entityId   := memberId
  }

-- The update of a role and its record, which all handlers have in common.
def writeRole (actorUserId groupId targetUserId previousRole newRole : String) : GroupTx Unit := do
  Prog.perform (GroupAction.updateRole groupId targetUserId newRole)
  auditGroupMemberAction actorUserId groupId targetUserId "group.member_role_change"
    [("targetUserId", targetUserId), ("previousRole", previousRole), ("newRole", newRole)]

-- `PATCH /groups/:id/members/:memberId`. Unlike the other handlers, it has no guard for the last admin.
def updateMember (actorUserId groupId memberId role : String) : GroupTx Unit := do
  requireActiveAdmin groupId actorUserId
  requireAdmin groupId actorUserId
  let target ← findTarget groupId memberId
  writeRole actorUserId groupId memberId target.role role

def setRole (actorUserId groupId targetUserId newRole : String) (lastAdmin : Failure) : GroupTx Unit := do
  requireAdmin groupId actorUserId
  let target ← findTarget groupId targetUserId
  if target.role = newRole then
    return ()
  if target.role = "admin" ∧ newRole ≠ "admin" then
    checkLastAdmin groupId lastAdmin
    writeRole actorUserId groupId targetUserId target.role newRole
  else
    writeRole actorUserId groupId targetUserId target.role newRole

-- `POST /groups/:id/members/role`
def changeMemberRole (actorUserId groupId targetUserId newRole : String) : GroupTx Unit := do
  requireActiveAdmin groupId actorUserId
  setRole actorUserId groupId targetUserId newRole <|
    .conflict "last_admin" "Cannot demote the last admin of the group"

def modifyGroupMemberRole (actorUserId groupId targetUserId newRole : String) : GroupTx Unit :=
  setRole actorUserId groupId targetUserId newRole <|
    .conflict "LAST_ADMIN" "Cannot remove the only admin from a group"

def checkRemove (groupId : String) (target : GroupMember) : GroupTx Unit :=
  if target.role = "admin" then
    checkLastAdmin groupId <| .conflict "last_admin" "Cannot remove the last admin from the group"
  else
    .done ()

def removeGroupMember (actorUserId groupId targetUserId : String) : GroupTx Unit := do
  requireActiveAdmin groupId actorUserId
  if targetUserId = actorUserId then
    throw <| .badRequest "SELF_REMOVE"
      "Cannot remove yourself from the group; use the leave endpoint instead"
  requireAdmin groupId actorUserId
  let target ← findTarget groupId targetUserId
  checkRemove groupId target
  Prog.perform (GroupAction.deleteMember groupId targetUserId)
  auditGroupMemberAction actorUserId groupId targetUserId "group.member_remove"
    [("targetUserId", targetUserId), ("removedRole", target.role)]

-- Whether an invite has been used up.
def Invite.usedUp (invite : Invite) : Bool :=
  invite.maxUses.any (· ≤ invite.uses)

def checkInvite (invite : Option Invite) (now : Time) : Except Failure Invite :=
  match invite with
  | none        => .error <| .notFound "Invite not found"
  | some invite =>
    if invite.expiresAt.any (· < now) then
      .error <| .badRequest "invite_expired" "This invite has expired"
    else if invite.usedUp then
      .error <| .badRequest "invite_used_up" "This invite has reached its use limit"
    else
      .ok invite

-- The transaction of a join.
def acceptInvite (userId : String) (invite : Invite) : GroupTx Unit := do
  Prog.perform <| GroupAction.createMember
    { groupId := invite.groupId, userId, role := "member" } invite.id
  Prog.perform (GroupAction.incrementUses invite.id)
  Prog.perform <| GroupAction.createAudit {
    userId
    groupId    := invite.groupId
    action     := "group.join"
    entityType := "group"
    entityId   := invite.groupId
    metadata   := [("inviteId", invite.id)]
  }

def joinGroup (userId code : String) : GroupTx Unit := do
  let invite ← Prog.perform (GroupAction.findInvite (toUpperCase code))
  let now ← Prog.perform .now
  let invite ← Prog.ofExcept (checkInvite invite now)
  let existing ← Prog.perform (GroupAction.findMember invite.groupId userId)
  if existing.isNone then
    acceptInvite userId invite

inductive GroupRequest
  | leave (groupId userId : String)
  | updateMember (actorUserId groupId memberId role : String)
  | changeMemberRole (actorUserId groupId targetUserId newRole : String)
  | modifyGroupMemberRole (actorUserId groupId targetUserId newRole : String)
  | removeGroupMember (actorUserId groupId targetUserId : String)
  | join (userId code : String)
  deriving DecidableEq

def groupRequest : GroupRequest → GroupTx Unit
  | .leave g u                     => leaveGroup g u
  | .updateMember a g u r          => updateMember a g u r
  | .changeMemberRole a g u r      => changeMemberRole a g u r
  | .modifyGroupMemberRole a g u r => modifyGroupMemberRole a g u r
  | .removeGroupMember a g u       => removeGroupMember a g u
  | .join u code                   => joinGroup u code

abbrev GroupStep :=
  Database.Step GroupRequest GroupAction GroupAction.Answer Failure

abbrev GroupConfig :=
  Config GroupStore GroupStep Database.Step.Answer Failure

abbrev groupSystem :=
  groupDatabase.system groupEnv groupRequest

end Mergepay.Groups
