import Mergepay.Groups.Writes

namespace Mergepay.Groups

open Concurrency

def memberKey (m : GroupMember) : String × String :=
  (m.groupId, m.userId)

def GroupStore.Keyed (s : GroupStore) : Prop :=
  (s.members.map memberKey).Nodup

-- A group that has any members has an administrator among them.
def GroupStore.Administered (s : GroupStore) (groupId : String) : Prop :=
  0 < s.countMembers groupId → 0 < s.countAdmins groupId

instance (s : GroupStore) : Decidable s.Keyed :=
  inferInstanceAs (Decidable (List.Nodup _))

instance (s : GroupStore) (groupId : String) : Decidable (s.Administered groupId) :=
  inferInstanceAs (Decidable (_ → _))

def GroupStore.isAdmin (s : GroupStore) (groupId userId : String) : Bool :=
  (s.member groupId userId).any (·.role = "admin")

-- A write meets the guards of the code in the state in which it is committed. In addition, nobody joins
-- a group that has been left by everyone.
def GuardedWrite (groupId : String) : GroupAction → GroupStore → Prop
  | .deleteMember g u, s     => g = groupId → s.isAdmin g u →
    ¬abandons (s.countAdmins g) (s.countMembers g)
  | .updateRole g u role, s  => g = groupId → s.isAdmin g u → role ≠ "admin" →
    ¬isLastAdmin (s.countAdmins g)
  | .createMember row _, s   => row.groupId = groupId → 0 < s.countMembers row.groupId
  | _, _                     => True

instance (groupId : String) (a : GroupAction) (s : GroupStore) : Decidable (GuardedWrite groupId a s) := by
  unfold GuardedWrite
  split <;> infer_instance

def Guarded (groupId : String) : GroupStep → GroupStore → Prop
  | .commit _ log, s => ∀ a ∈ written log, GuardedWrite groupId a s
  | .act _ _ _, _    => True

instance (groupId : String) (a : GroupStep) (s : GroupStore) : Decidable (Guarded groupId a s) := by
  cases a with
  | act _ _ _    => exact inferInstanceAs (Decidable True)
  | commit _ log => exact inferInstanceAs (Decidable (∀ a ∈ written log, GuardedWrite groupId a s))

namespace GroupStore

variable {s : GroupStore} {m : GroupMember} {g u role : String}

theorem member_eq : s.member g u = Table.row? memberKey s.members (g, u) := by
  simp [member, Table.row?, memberKey, Prod.ext_iff]

theorem exists_member (h : (s.member g u).isSome) :
    ∃ m ∈ s.members, memberKey m = (g, u) ∧ (s.isAdmin g u = decide (m.role = "admin")) := by
  have ⟨m, hm⟩ := Option.isSome_iff_exists.mp h
  have hr := member_eq.symm.trans hm
  exact ⟨m, Table.mem_of_row? hr, Table.key_of_row? hr, by simp [isAdmin, hm]⟩

-- The number of members and administrators after a row has been removed.
theorem counts_delete (hk : s.Keyed) (hm : m ∈ s.members) (he : memberKey m = (g, u)) :
    s.countMembers g = (groupEffect (.deleteMember g u) s).countMembers g + 1 ∧
    s.countAdmins g = (groupEffect (.deleteMember g u) s).countAdmins g +
      if m.role = "admin" then 1 else 0 := by
  have hg : m.groupId = g := congrArg (·.1) he
  have hf : (groupEffect (.deleteMember g u) s).members =
      s.members.filter (memberKey · ≠ memberKey m) := by
    rw [he]
    simp [groupEffect, memberKey, Prod.ext_iff]
  unfold countMembers countAdmins
  rw [hf]
  constructor
  · simpa [hg] using Table.countP_filter_ne (q := (·.groupId = g)) hk hm
  · simpa [hg] using Table.countP_filter_ne (q := fun m => m.groupId = g ∧ m.role = "admin") hk hm

-- The number of members and administrators after a role has been changed.
theorem counts_update (role : String) (hk : s.Keyed) (hm : m ∈ s.members) (he : memberKey m = (g, u)) :
    (groupEffect (.updateRole g u role) s).countMembers g = s.countMembers g ∧
    (groupEffect (.updateRole g u role) s).countAdmins g + (if m.role = "admin" then 1 else 0) =
      s.countAdmins g + if role = "admin" then 1 else 0 := by
  have hg : m.groupId = g := congrArg (·.1) he
  have hf : (groupEffect (.updateRole g u role) s).members =
      Table.update (memberKey · = memberKey m) ({ · with role }) s.members := by
    rw [he]
    simp [groupEffect, memberKey, Prod.ext_iff]
  unfold countMembers countAdmins
  rw [hf]
  constructor
  · simpa [hg] using Table.countP_update (f := ({ · with role })) (q := (·.groupId = g)) hk hm
  · simpa [hg] using Table.countP_update (f := ({ · with role }))
      (q := fun m => m.groupId = g ∧ m.role = "admin") hk hm

theorem countAdmins_le : s.countAdmins g ≤ s.countMembers g :=
  List.countP_mono_left fun m _ h => by simp_all

-- The counts of a group do not depend on what is written about other groups.

theorem counts_of_ne {g' : String} (h : g' ≠ g) (u role : String) :
    ((groupEffect (.deleteMember g' u) s).countMembers g = s.countMembers g ∧
      (groupEffect (.deleteMember g' u) s).countAdmins g = s.countAdmins g) ∧
    (groupEffect (.updateRole g' u role) s).countMembers g = s.countMembers g ∧
      (groupEffect (.updateRole g' u role) s).countAdmins g = s.countAdmins g := by
  unfold countMembers countAdmins
  simp only [groupEffect, Table.update, List.countP_filter, List.countP_map]
  refine ⟨⟨?_, ?_⟩, ?_, ?_⟩ <;> refine List.countP_congr fun m _ => ?_
  · grind
  · grind
  · grind
  · grind

section

variable {groupId inviteId : String} {row : GroupMember} (hk : s.Keyed) (h : s.Administered groupId)
include hk h

theorem administered_delete_iff (ha : (s.member g u).isSome) :
    (groupEffect (.deleteMember g u) s).Administered groupId ↔
      GuardedWrite groupId (.deleteMember g u) s := by
  unfold Administered at h ⊢
  by_cases hg : g = groupId
  case neg =>
    have ⟨⟨hm, ha⟩, _⟩ := counts_of_ne (s := s) hg u ""
    rw [hm, ha]
    exact ⟨fun _ he => (hg he).elim, fun _ => h⟩
  case pos =>
    subst hg
    have ⟨m, hm, he, hr⟩ := exists_member ha
    have ⟨hcm, hca⟩ := counts_delete hk hm he
    simp only [GuardedWrite, abandons, hr, true_imp_iff, decide_eq_true_eq]
    split at hca
    case isFalse hn => simp only [hn, false_imp_iff, iff_true]; omega
    case isTrue hr' => simp only [hr', true_imp_iff]; omega

theorem administered_update_iff (ha : (s.member g u).isSome) :
    (groupEffect (.updateRole g u role) s).Administered groupId ↔
      GuardedWrite groupId (.updateRole g u role) s := by
  unfold Administered at h ⊢
  by_cases hg : g = groupId
  case neg =>
    have ⟨_, hm, ha⟩ := counts_of_ne (s := s) hg u role
    rw [hm, ha]
    exact ⟨fun _ he => (hg he).elim, fun _ => h⟩
  case pos =>
    subst hg
    have ⟨m, hm, he, hr⟩ := exists_member ha
    have ⟨hcm, hca⟩ := counts_update role hk hm he
    have hpos : 0 < s.countMembers g :=
      List.countP_pos_iff.mpr ⟨m, hm, decide_eq_true (congrArg (·.1) he)⟩
    have hadm := h hpos
    simp only [GuardedWrite, isLastAdmin, hr, true_imp_iff, decide_eq_true_eq]
    rw [hcm]
    by_cases hm : m.role = "admin" <;> by_cases hr : role = "admin" <;> simp [hm, hr] at hca ⊢
    all_goals omega

omit hk in
theorem administered_create_iff (inviteId : String) (hr : row.role ≠ "admin") :
    (groupEffect (.createMember row inviteId) s).Administered groupId ↔
      GuardedWrite groupId (.createMember row inviteId) s := by
  have hle := countAdmins_le (s := s) (g := groupId)
  have hm : (groupEffect (.createMember row inviteId) s).countMembers groupId =
      s.countMembers groupId + if row.groupId = groupId then 1 else 0 := by
    simp [countMembers, groupEffect]
  have ha : (groupEffect (.createMember row inviteId) s).countAdmins groupId =
      s.countAdmins groupId := by
    simp [countAdmins, groupEffect, hr]
  unfold Administered at h ⊢
  rw [hm, ha]
  simp only [GuardedWrite]
  split
  case isTrue hg  => subst hg; simp only [true_imp_iff]; omega
  case isFalse hg => simp only [hg, false_imp_iff, iff_true]; exact h

end

theorem Keyed.effect {a : GroupAction} (h : s.Keyed) (ha : groupAdmits a s = true) :
    (groupEffect a s).Keyed := by
  cases a
  case deleteMember g u      => exact h.sublist <| List.filter_sublist.map _
  case updateRole g u role =>
    have hm : (groupEffect (.updateRole g u role) s).members.map memberKey = s.members.map memberKey :=
      Table.map_update fun _ => rfl
    unfold Keyed
    rw [hm]
    exact h
  case createMember row i =>
    simp only [Keyed, groupEffect, List.map_append, List.map_singleton]
    refine List.nodup_append.mpr ⟨h, List.nodup_singleton _, fun k hk k' hk' he => ?_⟩
    have ⟨m, hm, hkm⟩ := List.mem_map.mp hk
    have he : memberKey m = (row.groupId, row.userId) :=
      hkm.trans <| he.trans <| List.mem_singleton.mp hk'
    have ⟨m', hm'⟩ := Table.row?_isSome_of_mem (k := memberKey) hm
    rw [he, ← member_eq] at hm'
    simp [groupAdmits, hm'] at ha
  all_goals exact h

theorem Keyed.writes {as : List GroupAction} (h : s.Keyed) (ha : groupDatabase.allowed as s = true) :
    (as.foldl (fun s a => groupEffect a s) s).Keyed := by
  induction as generalizing s with
  | nil => exact h
  | cons a as hi =>
    have ⟨ha, has⟩ := (Bool.and_eq_true ..).mp ha
    exact hi (h.effect ha) has

end GroupStore

namespace GroupWrites

variable {as : List GroupAction} {s : GroupStore} {groupId : String}

-- The writes of a request preserve the presence of an administrator if and only if they are guarded.
theorem administered_iff (hw : GroupWrites as) (hk : s.Keyed) (h : s.Administered groupId)
    (ha : groupDatabase.allowed as s = true) :
    (as.foldl (fun s a => groupEffect a s) s).Administered groupId ↔
      ∀ a ∈ as, GuardedWrite groupId a s := by
  cases hw with
  | nothing => simpa using h
  | removed =>
    have ⟨ha, _⟩ := (Bool.and_eq_true ..).mp ha
    exact (GroupStore.administered_delete_iff hk h ha).trans (by simp [GuardedWrite])
  | changed =>
    have ⟨ha, _⟩ := (Bool.and_eq_true ..).mp ha
    exact (GroupStore.administered_update_iff hk h ha).trans (by simp [GuardedWrite])
  | @joined g u i =>
    have hm : (⟨g, u, "member"⟩ : GroupMember).role ≠ "admin" := by simp
    exact (GroupStore.administered_create_iff h i hm).trans (by simp [GuardedWrite])

end GroupWrites

section

variable {s : GroupStore} {c : GroupConfig} {groupId : String}

abbrev AdminLaw (groupId : String) (s : GroupStore) : Prop :=
  s.Keyed ∧ s.Administered groupId

theorem admins_kept : groupDatabase.Keeps groupEnv groupRequest (Guarded groupId) (AdminLaw groupId) where
  env := fun {t s s'} h hx => by
    simp only [groupEnv, Option.ite_none_right_eq_some, Option.some.injEq] at hx
    exact hx.2 ▸ h
  commit := fun {i log s} h hc ha hd _ => by
    have hw : GroupWrites (written log) := groupRequest_leaves i log () hd
    have ha := admitted_written ha
    rw [view_written]
    exact ⟨h.1.writes ha, (hw.administered_iff h.1 h.2 ha).mpr hc⟩

-- In every run whose commits are guarded, the group keeps an administrator. Whether it does after the
-- next commit depends only on whether that is guarded.
theorem groups_stay_administered (hk : s.Keyed) (h : s.Administered groupId)
    (r : groupSystem.Run (Guarded groupId) ⟨s, []⟩ c) : c.shared.Administered groupId ∧
      ∀ n i log k c', c.procs[n]? = some (.call (.commit i log) k) →
        groupSystem.next (.act n .plain) c = some c' →
        (c'.shared.Administered groupId ↔ Guarded groupId (.commit i log) c.shared) := by
  have hr := (Database.Reached.init ⟨hk, h⟩).run admins_kept r
  refine ⟨hr.law.2, fun n i log k c' hp hn => ?_⟩
  have ⟨hd, _⟩ := hr.committing (List.mem_of_getElem? hp)
  have ⟨ha, hs⟩ := Database.committed hp rfl hn
  have hw : GroupWrites (written log) := groupRequest_leaves i log () hd
  rw [hs, view_written]
  exact hw.administered_iff hr.law.1 hr.law.2 (admitted_written ha)

end

-- A group with two administrators and one more member.

def sampleGroupStore : GroupStore := {
  groups  := [⟨"group", false⟩]
  members := [⟨"group", "alice", "admin"⟩, ⟨"group", "bob", "admin"⟩, ⟨"group", "carol", "member"⟩]
  invites := [{ id := "invite", groupId := "group", code := "CODE" }]
}

def performing (n m : Nat) : List (Label GroupChoice Time GroupRequest) :=
  Label.acts n (List.replicate m .plain)

-- Both administrators want to leave, one after the other.
def leavingInTurn : List (Label GroupChoice Time GroupRequest) :=
  .flatten [[.spawn (.leave "group" "alice")], performing 0 7, [.spawn (.leave "group" "bob")], performing 1 4]

theorem groups_stay_administered_sample : ∃ c : GroupConfig,
    c.shared.members.map (·.userId) = ["bob", "carol"] ∧
    c.procs.map (·.raised) =
      [none, some (.conflict "last_admin" "Promote another member to admin before leaving")] ∧
    c.shared.Administered "group" := by
  have ⟨c, r, hc⟩ := System.exists_run_of_play (C := Guarded "group") (S := groupSystem)
    (c := ⟨sampleGroupStore, []⟩)
    (p := fun c => c.shared.members.map (·.userId) = ["bob", "carol"] ∧
      c.procs.map (·.raised) =
        [none, some (.conflict "last_admin" "Promote another member to admin before leaving")])
    leavingInTurn (by decide +kernel)
  have ⟨hm, hp⟩ := of_decide_eq_true hc
  exact ⟨c, hm, hp, (groups_stay_administered (by decide) (by decide) r).1⟩

-- Both administrators leave at the same time. Each of them finds that there is another one.
def leavingAtOnce : List (Label GroupChoice Time GroupRequest) :=
  [.spawn (.leave "group" "alice"), .spawn (.leave "group" "bob")] ++
    performing 0 4 ++ performing 1 4 ++ performing 0 3 ++ performing 1 3

theorem admins_lost : ∃ c : GroupConfig,
    groupSystem.Run (fun _ _ => True) ⟨sampleGroupStore, []⟩ c ∧ 0 < sampleGroupStore.countAdmins "group" ∧
    c.shared.countMembers "group" = 1 ∧ c.shared.countAdmins "group" = 0 := by
  have ⟨c, r, hc⟩ := System.exists_run_of_play (C := fun _ _ => True) (S := groupSystem)
    (c := ⟨sampleGroupStore, []⟩)
    (p := fun c => c.shared.countMembers "group" = 1 ∧ c.shared.countAdmins "group" = 0)
    leavingAtOnce (by decide +kernel)
  exact ⟨c, r, by decide, of_decide_eq_true hc⟩

end Mergepay.Groups
