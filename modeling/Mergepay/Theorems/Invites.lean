import Mathlib.Data.List.Dedup
import Mergepay.Groups.Writes

namespace Mergepay.Groups

open Concurrency

namespace GroupStore

variable (s : GroupStore) (inviteId : String)

def invite : Option Invite :=
  Table.row? (·.id) s.invites inviteId

-- Everyone who has ever joined with an invite.
def joiners : List String :=
  (s.joinings.filter (·.inviteId = inviteId)).map (·.userId)

-- An invite counts the memberships that have been created with it.
def Counted (maxUses : Nat) : Prop :=
  ∃ invite, s.invite inviteId = some invite ∧ invite.maxUses = some maxUses ∧
    invite.uses = (s.joiners inviteId).length

end GroupStore

-- The check of the invite still passes in the state in which a join is committed.
def Available (inviteId : String) : GroupStep → GroupStore → Prop
  | .commit _ log, s => .incrementUses inviteId ∈ written log → (s.invite inviteId).any (·.usedUp) = false
  | .act _ _ _, _    => True

instance (inviteId : String) (a : GroupStep) (s : GroupStore) : Decidable (Available inviteId a s) := by
  induction a using Database.Step.casesOn with
  | act _ _ _    => exact inferInstanceAs (Decidable True)
  | commit _ log => exact inferInstanceAs (Decidable (_ → _))

section

variable {s : GroupStore} {c : GroupConfig} {inviteId : String} {m : Nat} {as : List GroupAction}

-- Those who join count once, both among the uses and among the users.
theorem GroupWrites.counted (hw : GroupWrites as) (h : s.Counted inviteId m) :
    GroupStore.Counted (as.foldl (fun s a => groupEffect a s) s) inviteId m ∧
      (GroupStore.joiners (as.foldl (fun s a => groupEffect a s) s) inviteId).length =
        (s.joiners inviteId).length + if .incrementUses inviteId ∈ as then 1 else 0 := by
  cases hw with
  | nothing | removed | changed => exact ⟨h, by simp [GroupStore.joiners, groupEffect]⟩
  | @joined g u i row =>
    have ⟨invite, hi, hm, hu⟩ := h
    have hj : GroupStore.joiners ([GroupAction.createMember ⟨g, u, "member"⟩ i, .incrementUses i,
        .createAudit row].foldl (fun s a => groupEffect a s) s) inviteId =
        s.joiners inviteId ++ if i = inviteId then [u] else [] := by
      simp only [GroupStore.joiners, List.foldl_cons, List.foldl_nil, groupEffect, List.filter_append,
        List.map_append]
      split
      case isTrue hi  => simp [hi]
      case isFalse hi => simp [hi]
    have hr : GroupStore.invite ([GroupAction.createMember ⟨g, u, "member"⟩ i, .incrementUses i,
        .createAudit row].foldl (fun s a => groupEffect a s) s) inviteId =
        (s.invite inviteId).map fun v => if v.id = i then { v with uses := v.uses + 1 } else v := by
      refine (Table.row?_update (k := (·.id)) (f := fun v : Invite => { v with uses := v.uses + 1 })
        (fun _ => rfl) inviteId).trans ?_
      simp [GroupStore.invite, groupEffect]
    have hid : invite.id = inviteId := Table.key_of_row? hi
    refine ⟨⟨if invite.id = i then { invite with uses := invite.uses + 1 } else invite, ?_, ?_, ?_⟩, ?_⟩
    · rw [hr, hi, Option.map_some]
    · split <;> exact hm
    · rw [hj, hid]
      by_cases he : i = inviteId
      · simp [he, hu]
      · simp [he, Ne.symm he, hu]
    · rw [hj]
      by_cases he : i = inviteId
      · simp [he]
      · simp [he, Ne.symm he]

theorem available_iff (h : s.Counted inviteId m) (hl : (s.joiners inviteId).length ≤ m) {n : Nat}
    (hn : n = (s.joiners inviteId).length + if .incrementUses inviteId ∈ as then 1 else 0) :
    n ≤ m ↔ (.incrementUses inviteId ∈ as → (s.invite inviteId).any (·.usedUp) = false) := by
  have ⟨invite, hi, hm, hu⟩ := h
  have he : (s.invite inviteId).any (·.usedUp) = false ↔ (s.joiners inviteId).length < m := by
    simp [hi, Invite.usedUp, hm, hu]
  rw [he, hn]
  split
  case isTrue ha  => simp only [ha, true_imp_iff]; omega
  case isFalse ha => simp only [ha, false_imp_iff, iff_true]; omega

theorem env_eq {t : Time} {s' : GroupStore} (h : groupEnv t s = some s') : s' = { s with now := t } := by
  simp only [groupEnv, Option.ite_none_right_eq_some, Option.some.injEq] at h
  exact h.2.symm

theorem uses_counted : groupDatabase.Keeps groupEnv groupRequest (fun _ _ => True)
    (GroupStore.Counted · inviteId m) where
  env    := fun h hx => env_eq hx ▸ h
  commit := fun {i log s} h _ _ hd _ => by
    rw [view_written]
    exact ((groupRequest_leaves i log () hd).counted h).1

abbrev InviteLaw (inviteId : String) (m : Nat) (s : GroupStore) : Prop :=
  s.Counted inviteId m ∧ (s.joiners inviteId).length ≤ m

theorem uses_limited : groupDatabase.Keeps groupEnv groupRequest (Available inviteId)
    (InviteLaw inviteId m) where
  env    := fun h hx => env_eq hx ▸ h
  commit := fun {i log s} h hc _ hd _ => by
    have ⟨hcounted, hn⟩ := (groupRequest_leaves i log () hd).counted h.1
    rw [view_written]
    exact ⟨hcounted, (available_iff h.1 h.2 hn).mpr hc⟩

-- The uses of an invite always are the memberships that have been created with it. They are within the
-- limit as long as its check still passes whenever a join is committed. Otherwise they are not.
theorem invite_within_limit (h : s.Counted inviteId m) (hl : (s.joiners inviteId).length ≤ m) :
    (∀ c, groupSystem.Run (fun _ _ => True) ⟨s, []⟩ c → c.shared.Counted inviteId m) ∧
    ∀ c, groupSystem.Run (Available inviteId) ⟨s, []⟩ c →
      (∃ invite, c.shared.invite inviteId = some invite ∧ invite.uses ≤ m ∧
        invite.uses = (c.shared.joiners inviteId).length ∧
        (c.shared.joiners inviteId).dedup.length ≤ m) ∧
      ∀ n i log k c', c.procs[n]? = some (.call (.commit i log) k) →
        groupSystem.next (.act n .plain) c = some c' →
        ((c'.shared.joiners inviteId).length ≤ m ↔ Available inviteId (.commit i log) c.shared) := by
  refine ⟨fun c r => uses_counted.law r h, fun c r => ?_⟩
  have hr := (Database.Reached.init ⟨h, hl⟩).run uses_limited r
  have ⟨⟨invite, hi, hm, hu⟩, hl⟩ := hr.law
  refine ⟨⟨invite, hi, hu ▸ hl, hu, (List.dedup_sublist _).length_le.trans hl⟩, ?_⟩
  intro n i log k c' hp hn
  have ⟨hd, _⟩ := hr.committing (List.mem_of_getElem? hp)
  have ⟨_, hn⟩ := Database.committed hp rfl hn
  rw [hn, view_written]
  exact available_iff hr.law.1 hr.law.2 ((groupRequest_leaves i log () hd).counted hr.law.1).2

end

-- An invite for a single user.

def sampleInviteStore : GroupStore := {
  groups  := [⟨"group", false⟩]
  members := [⟨"group", "alice", "admin"⟩]
  invites := [{ id := "invite", groupId := "group", code := "CODE", maxUses := some 1 }]
}

theorem sampleInviteStore_counted : sampleInviteStore.Counted "invite" 1 :=
  ⟨_, rfl, rfl, rfl⟩

def joining (n m : Nat) : List (Label GroupChoice Time GroupRequest) :=
  Label.acts n (List.replicate m .plain)

-- Two users join one after the other.
def joiningInTurn : List (Label GroupChoice Time GroupRequest) :=
  [.spawn (.join "bob" "code")] ++ joining 0 7 ++ [.spawn (.join "carol" "code")] ++ joining 1 2

theorem invite_within_limit_sample : ∃ c : GroupConfig,
    c.procs.map (·.raised) =
      [none, some (.badRequest "invite_used_up" "This invite has reached its use limit")] ∧
    c.shared.joiners "invite" = ["bob"] ∧
    ∃ invite, c.shared.invite "invite" = some invite ∧ invite.uses ≤ 1 := by
  have ⟨c, r, hc⟩ := System.exists_run_of_play (C := Available "invite") (S := groupSystem)
    (c := ⟨sampleInviteStore, []⟩)
    (p := fun c => c.procs.map (·.raised) =
        [none, some (.badRequest "invite_used_up" "This invite has reached its use limit")] ∧
      c.shared.joiners "invite" = ["bob"]) joiningInTurn (by decide +kernel)
  have ⟨hp, hj⟩ := of_decide_eq_true hc
  have ⟨⟨invite, hi, hu, _⟩, _⟩ :=
    (invite_within_limit sampleInviteStore_counted (by decide)).2 c r
  exact ⟨c, hp, hj, invite, hi, hu⟩

-- Both users read the invite before one of them has joined.
def joiningAtOnce : List (Label GroupChoice Time GroupRequest) :=
  [.spawn (.join "bob" "code"), .spawn (.join "carol" "code")] ++
    joining 0 3 ++ joining 1 3 ++ joining 0 4 ++ joining 1 4

theorem invite_exceeded : ∃ c : GroupConfig,
    groupSystem.Run (fun _ _ => True) ⟨sampleInviteStore, []⟩ c ∧
    (c.shared.invite "invite").map (fun i => (i.maxUses, i.uses)) = some (some 1, 2) ∧
    c.shared.joiners "invite" = ["bob", "carol"] := by
  have ⟨c, r, hc⟩ := System.exists_run_of_play (C := fun _ _ => True) (S := groupSystem)
    (c := ⟨sampleInviteStore, []⟩)
    (p := fun c => (c.shared.invite "invite").map (fun i => (i.maxUses, i.uses)) = some (some 1, 2) ∧
      c.shared.joiners "invite" = ["bob", "carol"]) joiningAtOnce (by decide +kernel)
  exact ⟨c, r, of_decide_eq_true hc⟩

end Mergepay.Groups
