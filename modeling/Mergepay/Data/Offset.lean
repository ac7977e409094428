import Mergepay.Data.Scan
import Mathlib.Data.List.Nodup

-- Pages of two tables that are addressed by the number of rows to skip in each of them
namespace Scan

variable {α κ : Type} (r : κ → κ → Prop) [DecidableRel r] (key : α → κ)

def window (o n : Nat) (l : List α) : List α :=
  ((ordered r key l).drop o).take n

def mergedWindows (o n : Nat) (t u : List α) : List α :=
  ordered r key (window r key o n t ++ window r key o n u)

-- The page consists of the rows that follow after as many rows of the tables together, and there is a
-- further row if and only if some row follows after the page.
def Agrees (limit o : Nat) (t u : List α) : Prop :=
  (mergedWindows r key o (limit + 1) t u).take limit = ((ordered r key (t ++ u)).drop o).take limit ∧
  (limit < (mergedWindows r key o (limit + 1) t u).length ↔ o + limit < (t ++ u).length)

-- Up to the end of the page, the rows come from the first table alone. The row that follows is not skipped.
structure Aligned (limit o : Nat) (t u : List α) : Prop where
  enough : o + limit ≤ t.length
  first  : ∀ a ∈ (ordered r key t).take (o + limit), ∀ b ∈ u, r (key a) (key b)
  more   : o + limit < t.length ∨ o < u.length

variable {r key} {t u l₁ l₂ : List α} {limit o n : Nat}

theorem length_window : (window r key o n l).length = min n (l.length - o) := by
  rw [window, List.length_take, List.length_drop, length_ordered]

theorem length_mergedWindows :
    (mergedWindows r key o n t u).length = min n (t.length - o) + min n (u.length - o) := by
  rw [mergedWindows, length_ordered, List.length_append, length_window, length_window]

theorem window_sublist : (window r key o n l).Sublist (ordered r key l) :=
  (List.take_sublist ..).trans (List.drop_sublist ..)

theorem mem_of_mem_window (h : a ∈ window r key o n l) : a ∈ l :=
  mem_ordered.mp <| window_sublist.subset h

section Order

variable [IsStrictTotalOrder κ r] (hd : ((t ++ u).map key).Nodup)

include hd in
omit [DecidableRel r] [IsStrictTotalOrder κ r] in
theorem nodup_comm : ((u ++ t).map key).Nodup :=
  (List.perm_append_comm.map key).nodup_iff.mp hd

include hd in
omit [IsStrictTotalOrder κ r] in
theorem nodup_mergedWindows : ((window r key o n t ++ window r key o n u).map key).Nodup := by
  have h : ((ordered r key t ++ ordered r key u).map key).Nodup := by
    refine (List.Perm.map key ?_).nodup_iff.mpr hd
    exact (List.perm_insertionSort _ t).append (List.perm_insertionSort _ u)
  exact h.sublist <| (window_sublist.append window_sublist).map key

-- Rows that come before all others.
theorem ordered_split (h : (l.map key).Nodup) (hp : l.Perm (l₁ ++ l₂)) (ha : Ascending r key l₁)
    (hr : ∀ a ∈ l₁, ∀ b ∈ l₂, r (key a) (key b)) : ordered r key l = l₁ ++ ordered r key l₂ := by
  have h₂ : ((l₁ ++ l₂).map key).Nodup := (hp.map key).nodup_iff.mp h
  rw [List.map_append] at h₂
  refine eq_of_ascending (ascending_ordered h) (List.pairwise_append.mpr ⟨ha, ?_, ?_⟩) fun a => ?_
  · exact ascending_ordered h₂.of_append_right
  · exact fun a ha b hb => hr a ha b (mem_ordered.mp hb)
  · simp [hp.mem_iff]

include hd in
theorem agrees_comm : Agrees r key limit o t u ↔ Agrees r key limit o u t := by
  have hm : mergedWindows r key o (limit + 1) t u = mergedWindows r key o (limit + 1) u t :=
    ordered_perm (nodup_mergedWindows hd) List.perm_append_comm
  have ho : ordered r key (t ++ u) = ordered r key (u ++ t) := ordered_perm hd List.perm_append_comm
  rw [Agrees, Agrees, hm, ho, List.length_append, List.length_append, Nat.add_comm t.length]

-- Nothing is skipped.
include hd in
theorem agrees_zero : Agrees r key limit 0 t u := by
  have hd : ([t, u].flatten.map key).Nodup := by simpa using hd
  have hm := take_merge (r := r) hd (limit + 1)
  simp only [List.flatMap_cons, List.flatMap_nil, List.append_nil, List.flatten_cons, List.flatten_nil] at hm
  refine ⟨?_, ?_⟩
  · have := congrArg (List.take limit) hm
    rwa [List.take_take, List.take_take, Nat.min_eq_left (Nat.le_succ _)] at this
  · rw [length_mergedWindows, List.length_append]
    omega

-- There is one table only.
include hd in
theorem agrees_nil (h : u = []) : Agrees r key limit o t u := by
  subst h
  have hs : Ascending r key (window r key o (limit + 1) t) :=
    (ascending_ordered (by simpa using hd)).sublist window_sublist
  have hm : mergedWindows r key o (limit + 1) t [] = window r key o (limit + 1) t := by
    have hn : window r key o (limit + 1) [] = [] := by simp [window, ordered]
    rw [mergedWindows, hn, List.append_nil, ordered_eq_self hs]
  refine ⟨?_, ?_⟩
  · rw [hm, window, List.take_take, List.append_nil, Nat.min_eq_left (Nat.le_succ _)]
  · rw [length_mergedWindows, List.length_append, List.length_nil]
    omega

omit [IsStrictTotalOrder κ r] in
-- All rows are skipped.
theorem agrees_of_le (h : (t ++ u).length ≤ o) : Agrees r key limit o t u := by
  have hl : (t ++ u).length = t.length + u.length := List.length_append
  have hm : mergedWindows r key o (limit + 1) t u = [] := by
    rw [← List.length_eq_zero_iff, length_mergedWindows]
    omega
  refine ⟨?_, ?_⟩
  · rw [hm, List.drop_eq_nil_of_le (by rwa [length_ordered]), List.take_nil]
  · rw [length_mergedWindows]
    omega

-- The rows up to an index come before the others.
theorem take_before_drop (h : (l.map key).Nodup) (n : Nat) :
    ∀ a ∈ (ordered r key l).take n, ∀ b ∈ (ordered r key l).drop n, r (key a) (key b) := by
  have hs := ascending_ordered (r := r) h
  rw [← List.take_append_drop n (ordered r key l)] at hs
  exact (List.pairwise_append.mp hs).2.2

include hd in
theorem Aligned.agrees (h : Aligned r key limit o t u) : Agrees r key limit o t u := by
  have ⟨henough, hfirst, hmore⟩ := h
  have ht : (t.map key).Nodup := (List.map_append (f := key) ▸ hd).of_append_left
  have hs := ascending_ordered (r := r) ht
  have hp : (ordered r key t).Perm t := List.perm_insertionSort _ t
  have hlen : (ordered r key t).length = t.length := length_ordered
  have hbefore := take_before_drop (r := r) ht (o + limit)
  -- The page, as a part of the first table
  have hpage : ((ordered r key t).drop o).take limit = ((ordered r key t).take (o + limit)).drop o := by
    rw [List.drop_take, Nat.add_sub_cancel_left]
  have hlimit : (((ordered r key t).drop o).take limit).length = limit := by
    rw [List.length_take, List.length_drop, hlen]
    omega
  have hm : mergedWindows r key o (limit + 1) t u = ((ordered r key t).drop o).take limit ++
      ordered r key (((ordered r key t).drop (o + limit)).take 1 ++ window r key o (limit + 1) u) := by
    refine ordered_split (nodup_mergedWindows hd) (.of_eq ?_) ?_ fun a ha b hb => ?_
    · rw [window, List.take_add, List.drop_drop, List.append_assoc]
    · exact hs.sublist <| (List.take_sublist ..).trans (List.drop_sublist ..)
    · have ha := List.mem_of_mem_drop (hpage ▸ ha)
      rcases List.mem_append.mp hb with hb | hb
      · exact hbefore a ha b (List.mem_of_mem_take hb)
      · exact hfirst a ha b (mem_of_mem_window hb)
  have ho : ordered r key (t ++ u) = (ordered r key t).take (o + limit) ++
      ordered r key ((ordered r key t).drop (o + limit) ++ u) := by
    refine ordered_split hd ?_ (hs.sublist <| List.take_sublist ..) fun a ha b hb => ?_
    · rw [← List.append_assoc, List.take_append_drop]
      exact hp.symm.append_right u
    · rcases List.mem_append.mp hb with hb | hb
      · exact hbefore a ha b hb
      · exact hfirst a ha b hb
  refine ⟨?_, ?_⟩
  · have htake : ((ordered r key t).take (o + limit)).length = o + limit := by
      rw [List.length_take, hlen]
      omega
    rw [hm, ho, List.take_left' hlimit, List.drop_append_of_le_length (by omega), ← hpage, List.take_left' hlimit]
  · rw [length_mergedWindows, List.length_append]
    omega

theorem mem_take_of_before (h : (l.map key).Nodup) (ha : a ∈ l) (hb : b ∈ (ordered r key l).take n)
    (hab : r (key a) (key b)) : a ∈ (ordered r key l).take n := by
  have ha : a ∈ ordered r key l := mem_ordered.mpr ha
  rw [← List.take_append_drop n (ordered r key l), List.mem_append] at ha
  refine ha.resolve_right fun ha => ?_
  exact asymm_of r hab <| take_before_drop h n b hb a ha

omit [DecidableRel r] [IsStrictTotalOrder κ r] in
-- At most so many rows come first.
theorem length_le_of_mem_take (h : l₁.Nodup) (hm : ∀ a ∈ l₁, a ∈ l₂.take n) : l₁.length ≤ n :=
  (List.subperm_of_subset h hm).length_le.trans (List.length_take_le ..)

omit [IsStrictTotalOrder κ r] in
-- What is on the page has not been skipped in its table.
theorem Agrees.unskipped (h : Agrees r key limit o t u)
    (hx : x ∈ ((ordered r key (t ++ u)).drop o).take limit) :
    x ∈ (ordered r key t).drop o ∨ x ∈ (ordered r key u).drop o := by
  rw [← h.1] at hx
  have hx := mem_ordered.mp (List.mem_of_mem_take hx)
  exact (List.mem_append.mp hx).imp List.mem_of_mem_take List.mem_of_mem_take

include hd in
omit [DecidableRel r] [IsStrictTotalOrder κ r] in
theorem not_mem_right (hx : x ∈ t) : x ∉ u := by
  have ⟨_, _, hdisjoint⟩ := List.nodup_append.mp (List.map_append (f := key) ▸ hd)
  exact fun hxu => hdisjoint _ (List.mem_map_of_mem hx) _ (List.mem_map_of_mem hxu) rfl

include hd in
-- If no row of the second table is among the first rows, then these are the first rows of the first table.
theorem first_of_drop (hn : n ≤ (t ++ u).length) (hu : ∀ c ∈ u, c ∈ (ordered r key (t ++ u)).drop n) :
    n ≤ t.length ∧ ∀ x ∈ (ordered r key t).take n, ∀ c ∈ u, r (key x) (key c) := by
  have ht : (t.map key).Nodup := (List.map_append (f := key) ▸ hd).of_append_left
  have hs := ascending_ordered (r := r) hd
  have hlen : ((ordered r key (t ++ u)).take n).length = n := by
    rw [List.length_take, length_ordered, Nat.min_eq_left hn]
  have hfirst : ∀ x ∈ (ordered r key (t ++ u)).take n, x ∈ t := by
    intro x hx
    have hm := mem_ordered.mp (List.mem_of_mem_take hx)
    refine (List.mem_append.mp hm).resolve_right fun hxu => ?_
    exact irrefl_of r (key x) <| take_before_drop hd n x hx x (hu x hxu)
  have hn := hs.nodup.sublist (List.take_sublist n _)
  refine ⟨?_, fun x hx c hc => ?_⟩
  · have := (List.subperm_of_subset hn hfirst).length_le
    omega
  · have hxt := mem_ordered.mp (List.mem_of_mem_take hx)
    have hxs : x ∈ ordered r key (t ++ u) := mem_ordered.mpr (List.mem_append_left u hxt)
    rw [← List.take_append_drop n (ordered r key (t ++ u)), List.mem_append] at hxs
    rcases hxs with hxs | hxs
    case inl => exact take_before_drop hd n x hxs c (hu c hc)
    case inr =>
      -- Otherwise, more rows than possible come first in the first table.
      have hall : ∀ y ∈ (ordered r key (t ++ u)).take n ++ [x], y ∈ (ordered r key t).take n := by
        intro y hy
        rcases List.mem_append.mp hy with hy | hy
        · exact mem_take_of_before ht (hfirst y hy) hx (take_before_drop hd n y hy x hxs)
        · exact List.mem_singleton.mp hy ▸ hx
      have hnodup : ((ordered r key (t ++ u)).take n ++ [x]).Nodup := by
        refine List.nodup_append.mpr ⟨hn, List.nodup_singleton x, fun y hy z hz he => ?_⟩
        obtain rfl := List.mem_singleton.mp hz
        exact irrefl_of r (key z) <| take_before_drop hd n z (he ▸ hy) z hxs
      have := length_le_of_mem_take hnodup hall
      rw [List.length_append, hlen, List.length_singleton] at this
      omega

include hd in
-- If the first row of a page belongs to the first table, then all of its rows do.
theorem Agrees.aligned (h : Agrees r key limit o t u) (hlim : 0 < limit) (ho : 0 < o) (hu : u ≠ [])
    (ha : (ordered r key (t ++ u))[o]? = some a) (hat : a ∈ t) : Aligned r key limit o t u := by
  have hkeys := List.map_append (f := key) ▸ hd
  have ht : (t.map key).Nodup := hkeys.of_append_left
  have hku : (u.map key).Nodup := hkeys.of_append_right
  have hs := ascending_ordered (r := r) hd
  -- The first row of the second table is skipped, so it is not on the page.
  obtain ⟨b, us, hb⟩ : ∃ b us, ordered r key u = b :: us := by
    refine List.exists_cons_of_ne_nil fun he => hu ?_
    have hl : (ordered r key u).length = u.length := length_ordered
    rw [← List.length_eq_zero_iff, ← hl, he, List.length_nil]
  have hus := ascending_ordered (r := r) hku
  rw [hb] at hus
  have hbu : b ∈ u := mem_ordered.mp (hb ▸ List.mem_cons_self)
  have hpage : b ∉ ((ordered r key (t ++ u)).drop o).take limit := by
    intro hp
    rcases h.unskipped hp with hp | hp
    case inl => exact not_mem_right hd (mem_ordered.mp (List.mem_of_mem_drop hp)) hbu
    case inr =>
      obtain ⟨n, rfl⟩ : ∃ n, o = n + 1 := ⟨o - 1, by omega⟩
      rw [hb, List.drop_succ_cons] at hp
      exact irrefl_of r (key b) <| (List.pairwise_cons.mp hus).1 b (List.mem_of_mem_drop hp)
  -- Neither does it come before, because the rows that are skipped in the first table do.
  have hbefore : b ∉ (ordered r key (t ++ u)).take o := by
    intro hbo
    have hap : a ∈ ((ordered r key (t ++ u)).drop o).take limit := by
      refine List.mem_of_getElem? (i := 0) ?_
      rw [List.getElem?_take_of_lt hlim, List.getElem?_drop, Nat.add_zero, ha]
    have had := (h.unskipped hap).resolve_right fun hau => not_mem_right hd hat (mem_ordered.mp (List.mem_of_mem_drop hau))
    have has : a ∈ (ordered r key (t ++ u)).take (o + 1) := by
      refine List.mem_of_getElem? (i := o) ?_
      rw [List.getElem?_take_of_lt (Nat.lt_succ_self o), ha]
    have hbs : b ∈ (ordered r key (t ++ u)).take (o + 1) := List.take_subset_take_left _ (Nat.le_succ o) hbo
    have hskipped : ∀ y ∈ (ordered r key t).take o, r (key y) (key a) := fun y hy => take_before_drop ht o y hy a had
    have hall : ∀ y ∈ (ordered r key t).take o ++ [b, a], y ∈ (ordered r key (t ++ u)).take (o + 1) := by
      intro y hy
      rcases List.mem_append.mp hy with hy | hy
      · have hyt := mem_ordered.mp (List.mem_of_mem_take hy)
        exact mem_take_of_before hd (List.mem_append_left u hyt) has (hskipped y hy)
      · rcases List.mem_pair.mp hy with rfl | rfl
        · exact hbs
        · exact has
    have hba : b ≠ a := fun he => not_mem_right hd hat (he ▸ hbu)
    have hnodup : ((ordered r key t).take o ++ [b, a]).Nodup := by
      refine List.nodup_append.mpr ⟨(ascending_ordered ht).nodup.sublist (List.take_sublist ..), by simp [hba], ?_⟩
      intro y hy z hz he
      subst he
      rcases List.mem_pair.mp hz with rfl | rfl
      · exact not_mem_right hd (mem_ordered.mp (List.mem_of_mem_take hy)) hbu
      · exact irrefl_of r (key y) (hskipped y hy)
    have hlen := length_le_of_mem_take hnodup hall
    have hpos := List.length_pos_of_mem had
    rw [List.length_drop] at hpos
    rw [List.length_append, List.length_take, List.length_cons, List.length_singleton] at hlen
    omega
  have hfar : b ∉ (ordered r key (t ++ u)).take (o + limit) := by
    rw [List.take_add, List.mem_append, not_or]
    exact ⟨hbefore, hpage⟩
  have hafter : ∀ c ∈ u, c ∈ (ordered r key (t ++ u)).drop (o + limit) := by
    intro c hc
    have hcs : c ∈ ordered r key (t ++ u) := mem_ordered.mpr (List.mem_append_right t hc)
    rw [← List.take_append_drop (o + limit) (ordered r key (t ++ u)), List.mem_append] at hcs
    refine hcs.resolve_left fun hct => hfar ?_
    have hcu : c ∈ ordered r key u := mem_ordered.mpr hc
    rw [hb] at hcu
    rcases List.mem_cons.mp hcu with rfl | hcu
    · exact hct
    · exact mem_take_of_before hd (List.mem_append_right t hbu) hct <| (List.pairwise_cons.mp hus).1 c hcu
  have hlt : o + limit < (t ++ u).length := by
    have := List.length_pos_of_mem (hafter b hbu)
    rw [List.length_drop, length_ordered] at this
    omega
  have ⟨henough, hfirst⟩ := first_of_drop hd (Nat.le_of_lt hlt) hafter
  have hmore := h.2.mpr hlt
  rw [length_mergedWindows] at hmore
  exact ⟨henough, hfirst, by omega⟩

include hd in
theorem agrees_iff (hlim : 0 < limit) : Agrees r key limit o t u ↔
    o = 0 ∨ t = [] ∨ u = [] ∨ (t ++ u).length ≤ o ∨ Aligned r key limit o t u ∨ Aligned r key limit o u t := by
  constructor
  case mp =>
    intro h
    by_contra hno
    simp only [not_or, Nat.not_le] at hno
    have ⟨ho, ht, hu, hlt, hno⟩ := hno
    have hlen : o < (ordered r key (t ++ u)).length := by rwa [length_ordered]
    have ha := List.getElem?_eq_getElem hlen
    generalize (ordered r key (t ++ u))[o] = a at ha
    have hau := mem_ordered.mp (List.mem_of_getElem? ha)
    rcases List.mem_append.mp hau with hat | hau
    case inl => exact hno.1 <| h.aligned hd hlim (Nat.pos_of_ne_zero ho) hu ha hat
    case inr =>
      have h := (agrees_comm hd).mp h
      rw [ordered_perm hd List.perm_append_comm] at ha
      exact hno.2 <| h.aligned (nodup_comm hd) hlim (Nat.pos_of_ne_zero ho) ht ha hau
  case mpr =>
    rintro (rfl | rfl | rfl | h | h | h)
    · exact agrees_zero hd
    · exact (agrees_comm hd).mpr <| agrees_nil (nodup_comm hd) rfl
    · exact agrees_nil hd rfl
    · exact agrees_of_le h
    · exact h.agrees hd
    · exact (agrees_comm hd).mpr <| h.agrees (nodup_comm hd)

end Order

end Scan
