import Mathlib.Data.List.Perm.Basic
import Mathlib.Data.List.Sort
import Mathlib.Order.RelClasses

-- Scans of a table page by page, in the order of a key
namespace Scan

variable {α β κ χ ε : Type} (r : κ → κ → Prop) [DecidableRel r] (key : α → κ)

-- The rows in the order of their keys.
def ordered (l : List α) : List α :=
  l.insertionSort fun a b => ¬r (key b) (key a)

-- The rows beyond a key, if there is one.
def after (k : Option κ) (l : List α) : List α :=
  l.filter fun a => k.all fun k => r k (key a)

abbrev Ascending (l : List α) : Prop :=
  l.Pairwise fun a b => r (key a) (key b)

variable {r key} {l l₁ l₂ : List α} {p : α → Bool} {n : Nat}

@[simp]
theorem mem_ordered : a ∈ ordered r key l ↔ a ∈ l :=
  List.mem_insertionSort _

@[simp]
theorem length_ordered : (ordered r key l).length = l.length :=
  List.length_insertionSort _ _

theorem mem_after {k : Option κ} : a ∈ after r key k l ↔ a ∈ l ∧ ∀ x ∈ k, r x (key a) := by
  cases k <;> simp [after]

@[simp]
theorem after_none : after r key none l = l :=
  List.filter_eq_self.mpr fun _ _ => rfl

section Order

variable [IsStrictTotalOrder κ r]

omit [DecidableRel r] in
theorem Ascending.nodup_keys (h : Ascending r key l) : (l.map key).Nodup := by
  refine List.pairwise_map.mpr <| h.imp fun {a b} hab he => ?_
  exact irrefl_of r (key b) (he ▸ hab)

omit [DecidableRel r] in
theorem Ascending.nodup (h : Ascending r key l) : l.Nodup :=
  h.nodup_keys.of_map

omit [DecidableRel r] in
-- The order of the keys leaves no choice.
theorem eq_of_ascending (h₁ : Ascending r key l₁) (h₂ : Ascending r key l₂)
    (hm : ∀ a, a ∈ l₁ ↔ a ∈ l₂) : l₁ = l₂ := by
  have hp : l₁.Perm l₂ := (List.perm_ext_iff_of_nodup h₁.nodup h₂.nodup).mpr hm
  exact hp.eq_of_pairwise (fun a b _ _ hab hba => absurd hba (asymm_of r hab)) h₁ h₂

theorem ascending_ordered (h : (l.map key).Nodup) : Ascending r key (ordered r key l) := by
  have htotal : Std.Total fun a b => ¬r (key b) (key a) := ⟨fun a b => by
    by_cases hab : r (key b) (key a)
    · exact .inr (asymm_of r hab)
    · exact .inl hab⟩
  have htrans : IsTrans α fun a b => ¬r (key b) (key a) := ⟨fun a b c hab hbc hca => by
    rcases trichotomous_of r (key a) (key b) with h | h | h
    · exact hbc <| trans_of r hca h
    · exact hbc (h ▸ hca)
    · exact hab h⟩
  have hs := List.pairwise_insertionSort (fun a b => ¬r (key b) (key a)) l
  have hn : ((ordered r key l).map key).Nodup :=
    ((List.perm_insertionSort _ l).map key).nodup_iff.mpr h
  refine (hs.and (List.pairwise_map.mp hn)).imp fun ⟨hab, hne⟩ => ?_
  exact ((trichotomous_of r _ _).resolve_right fun h => h.elim hne hab)

theorem ordered_eq_self (h : Ascending r key l) : ordered r key l = l :=
  eq_of_ascending (ascending_ordered h.nodup_keys) h fun _ => mem_ordered

theorem ordered_perm (h : (l₁.map key).Nodup) (hp : l₁.Perm l₂) : ordered r key l₁ = ordered r key l₂ := by
  refine eq_of_ascending (ascending_ordered h) (ascending_ordered ?_) fun a => ?_
  · exact (hp.map key).nodup_iff.mp h
  · simp [hp.mem_iff]

-- Sorting commutes with the selection of rows.
theorem ordered_filter (h : (l.map key).Nodup) : ordered r key (l.filter p) = (ordered r key l).filter p := by
  refine eq_of_ascending (ascending_ordered ?_) ((ascending_ordered h).filter p) fun a => ?_
  · exact h.sublist (List.filter_sublist.map key)
  · simp

-- What comes after a row is the rest of the list.
theorem after_append_cons (h : Ascending r key (l₁ ++ a :: l₂)) :
    after r key (some (key a)) (l₁ ++ a :: l₂) = l₂ := by
  have ⟨_, h₂, h₁⟩ := List.pairwise_append.mp h
  have ⟨h₂, _⟩ := List.pairwise_cons.mp h₂
  have hn : l₁.filter (fun b => r (key a) (key b)) = [] := by
    refine List.filter_eq_nil_iff.mpr fun b hb => ?_
    simpa using asymm_of r (h₁ b hb a List.mem_cons_self)
  have hs : l₂.filter (fun b => r (key a) (key b)) = l₂ :=
    List.filter_eq_self.mpr fun b hb => by simpa using h₂ b hb
  simp [after, hn, hs, irrefl_of r (key a)]

theorem after_getElem (h : Ascending r key l) (hi : l[i]? = some a) :
    after r key (some (key a)) l = l.drop (i + 1) := by
  have ⟨hl, ha⟩ := List.getElem?_eq_some_iff.mp hi
  have hs : l.take i ++ a :: l.drop (i + 1) = l := by
    rw [← ha, List.getElem_cons_drop, List.take_append_drop]
  have h₂ := after_append_cons (hs.symm ▸ h)
  rwa [hs] at h₂

end Order

theorem ordered_map {f : β → α} (l : List β) :
    ordered r key (l.map f) = (ordered r (key ∘ f) l).map f :=
  (List.map_insertionSort _ _ f l fun _ _ _ _ => Iff.rfl).symm

-- Any way to sort the rows by their keys comes to the same result.
theorem insertionSort_eq_ordered {s : α → α → Prop} [DecidableRel s] (hd : l.Nodup)
    (h : ∀ a ∈ l, ∀ b ∈ l, a ≠ b → (s a b ↔ ¬r (key b) (key a))) : l.insertionSort s = ordered r key l := by
  have insert (a : α) (l : List α) (h : ∀ b ∈ l, s a b ↔ ¬r (key b) (key a)) :
      l.orderedInsert s a = l.orderedInsert (fun a b => ¬r (key b) (key a)) a := by
    induction l with
    | nil          => rfl
    | cons b tl hi =>
      simp only [List.orderedInsert_cons, h b List.mem_cons_self, hi fun c hc => h c (List.mem_cons_of_mem b hc)]
  induction l with
  | nil          => rfl
  | cons a tl hi =>
    have ⟨hne, hd⟩ := List.nodup_cons.mp hd
    have ht := hi hd fun b hb c hc => h b (List.mem_cons_of_mem a hb) c (List.mem_cons_of_mem a hc)
    rw [List.insertionSort_cons, ht]
    refine insert a _ fun b hb => ?_
    have hb := mem_ordered.mp hb
    exact h a List.mem_cons_self b (List.mem_cons_of_mem a hb) fun he => hne (he ▸ hb)

-- Windows

-- Rows that are missing further below do not matter to a window.
theorem take_filter (h : ∀ a ∈ l.take n, p a = true) : (l.filter p).take n = l.take n := by
  have hs : l.filter p = l.take n ++ (l.drop n).filter p := by
    conv => lhs; rw [← List.take_append_drop n l, List.filter_append, List.filter_eq_self.mpr h]
  rw [hs]
  by_cases hn : n ≤ l.length
  case pos => rw [List.take_left' (by simpa using hn)]
  case neg =>
    have hl : l.length ≤ n := by omega
    rw [List.drop_eq_nil_of_le hl, List.filter_nil, List.append_nil, List.take_of_length_le]
    simp

-- A selection of the rows moves each of them up.
theorem mem_take_filter (ha : a ∈ l.take n) (hp : p a = true) : a ∈ (l.filter p).take n := by
  have hs : l.filter p = (l.take n).filter p ++ (l.drop n).filter p := by
    rw [← List.filter_append, List.take_append_drop]
  have hl : ((l.take n).filter p).length ≤ n :=
    (List.length_filter_le ..).trans (List.length_take_le ..)
  rw [hs, List.take_append, List.take_of_length_le hl]
  exact List.mem_append_left _ <| List.mem_filter.mpr ⟨ha, hp⟩

theorem nodup_windows {tables : List (List α)} (h : (tables.flatten.map key).Nodup) {w : List α → List α}
    (hw : ∀ t, (w t).Sublist (ordered r key t)) : ((tables.flatMap w).map key).Nodup := by
  have hp : (tables.flatMap (ordered r key)).Perm (tables.flatMap id) :=
    List.Perm.flatMap_left tables fun t _ => List.perm_insertionSort _ t
  rw [List.flatMap_id] at hp
  have hs : (tables.flatMap w).Sublist (tables.flatMap (ordered r key)) := by
    clear h hp
    induction tables with
    | nil        => exact .slnil
    | cons t _ hi =>
      simp only [List.flatMap_cons]
      exact (hw t).append hi
  exact ((hp.map key).nodup_iff.mpr h).sublist <| hs.map key

variable [IsStrictTotalOrder κ r]

-- The first rows of several tables are found among the first rows of each of them.
theorem take_merge {tables : List (List α)} (h : (tables.flatten.map key).Nodup) (n : Nat) :
    (ordered r key (tables.flatMap fun t => (ordered r key t).take n)).take n =
      (ordered r key tables.flatten).take n := by
  classical
  have hs := ascending_ordered (r := r) h
  have hm : ∀ t ∈ tables, ∀ a ∈ t, a ∈ ordered r key tables.flatten :=
    fun t ht a ha => mem_ordered.mpr <| List.mem_flatten.mpr ⟨t, ht, ha⟩
  have hsub : ∀ a ∈ tables.flatMap (fun t => (ordered r key t).take n), a ∈ ordered r key tables.flatten := by
    intro a ha
    have ⟨t, ht, ha⟩ := List.mem_flatMap.mp ha
    exact hm t ht a <| mem_ordered.mp <| List.mem_of_mem_take ha
  have hw : ordered r key (tables.flatMap fun t => (ordered r key t).take n) =
      (ordered r key tables.flatten).filter (· ∈ tables.flatMap fun t => (ordered r key t).take n) := by
    refine eq_of_ascending (ascending_ordered ?_) (hs.filter _) fun a => ?_
    · exact nodup_windows h fun t => List.take_sublist n _
    · simp only [mem_ordered, List.mem_filter, decide_eq_true_eq]
      exact ⟨fun ha => ⟨mem_ordered.mp (hsub a ha), ha⟩, fun ha => ha.2⟩
  rw [hw]
  refine take_filter fun a ha => decide_eq_true ?_
  have ⟨t, ht, hat⟩ := List.mem_flatten.mp <| mem_ordered.mp <| List.mem_of_mem_take ha
  -- The rows of a table are a selection of all rows.
  have hst : ordered r key t = (ordered r key tables.flatten).filter (· ∈ t) := by
    refine eq_of_ascending (ascending_ordered ?_) (hs.filter _) fun b => ?_
    · exact h.sublist <| (List.sublist_flatten_of_mem ht).map key
    · simp only [mem_ordered, List.mem_filter, decide_eq_true_eq]
      exact ⟨fun hb => ⟨mem_ordered.mp (hm t ht b hb), hb⟩, fun hb => hb.2⟩
  refine List.mem_flatMap.mpr ⟨t, ht, ?_⟩
  rw [hst]
  exact mem_take_filter ha (decide_eq_true hat)

theorem ordered_after (h : (l.map key).Nodup) (k : Option κ) :
    ordered r key (after r key k l) = after r key k (ordered r key l) :=
  ordered_filter h

-- The same for the rows beyond a key.
theorem take_merge_after {tables : List (List α)} (h : (tables.flatten.map key).Nodup) (k : Option κ) (n : Nat) :
    (ordered r key (tables.flatMap fun t => (after r key k (ordered r key t)).take n)).take n =
      (after r key k (ordered r key tables.flatten)).take n := by
  have hf : (tables.map (after r key k)).flatten = after r key k tables.flatten :=
    List.filter_flatten.symm
  have hn : ((tables.map (after r key k)).flatten.map key).Nodup := by
    rw [hf]
    exact h.sublist (List.filter_sublist.map key)
  have hw : (tables.flatMap fun t => (after r key k (ordered r key t)).take n) =
      (tables.map (after r key k)).flatMap fun t => (ordered r key t).take n := by
    rw [List.flatMap_map]
    refine List.flatMap_congr fun t ht => ?_
    rw [ordered_after (h.sublist <| (List.sublist_flatten_of_mem ht).map key)]
  rw [hw, take_merge hn, hf, ordered_after h]

-- Pages

structure Answer (α χ : Type) where
  items : List α
  next  : Option χ
  deriving DecidableEq

section Pages

variable (r key) (cursor : α → χ) (limit : Nat)

-- The page of an ascending list that starts at its head. The cursor of its last row is returned if there
-- is more.
def page (s : List α) : Answer α χ where
  items := s.take limit
  next  := if limit < s.length then (s.take limit).getLast?.map cursor else none

def answer (k : Option κ) (l : List α) : Answer α χ :=
  page cursor limit (after r key k (ordered r key l))

-- A request serves the pages of what is in the table at its time.
structure Serves (request : Nat → Option χ → Except ε (Answer α χ)) (rows : Nat → List α) : Prop where
  first : ∀ n, request n none = .ok (answer r key cursor limit none (rows n))
  next  : ∀ n a, request n (some (cursor a)) = .ok (answer r key cursor limit (some (key a)) (rows n))

end Pages

-- The pages that are received by following the cursors, up to some point.
inductive Follows (request : Nat → Option χ → Except ε (Answer α χ)) :
    Nat → Option χ → List (Answer α χ) → Prop
  | last : request i c = .ok a → Follows request i c [a]
  | next : request i c = .ok a → a.next = some c' → Follows request (i + 1) (some c') ps →
    Follows request i c (a :: ps)

-- The last page says that there are no more.
def Complete (ps : List (Answer α χ)) : Prop :=
  ps.getLast?.any (·.next.isNone)

section Static

variable {cursor : α → χ} {limit : Nat} {request : Nat → Option χ → Except ε (Answer α χ)} {s : List α}

-- The page with the given number.
def nth (cursor : α → χ) (limit : Nat) (s : List α) (i : Nat) : Answer α χ :=
  page cursor limit (s.drop (i * limit))

-- The number of pages, which is at least one.
def count (limit n : Nat) : Nat :=
  max 1 ((n + limit - 1) / limit)

theorem lt_count_iff (h : 0 < limit) : i < count limit n ↔ i = 0 ∨ i * limit < n := by
  have hd : i < (n + limit - 1) / limit ↔ i * limit < n := by
    rw [← Nat.succ_le_iff, Nat.le_div_iff_mul_le h, Nat.succ_mul]
    omega
  unfold count
  omega

theorem le_count_mul (h : 0 < limit) : n ≤ count limit n * limit := by
  have hc := (lt_count_iff (i := count limit n) (n := n) h).not.mp (Nat.lt_irrefl _)
  omega

theorem nth_items : (nth cursor limit s i).items = (s.drop (i * limit)).take limit :=
  rfl

-- There is a further page if and only if there is a row on it, and its cursor is that of the row before.
theorem nth_next (h : 0 < limit) : (nth cursor limit s i).next =
    if i + 1 < count limit s.length then s[(i + 1) * limit - 1]?.map cursor else none := by
  have hm : (i + 1) * limit = i * limit + limit := by rw [Nat.add_mul, Nat.one_mul]
  have hc : i + 1 < count limit s.length ↔ limit < s.length - i * limit := by
    rw [lt_count_iff h]
    omega
  simp only [nth, page, List.length_drop, hc]
  split
  case isFalse hl => rfl
  case isTrue hl =>
    have hlen : ((s.drop (i * limit)).take limit).length = limit := by
      rw [List.length_take, List.length_drop]
      omega
    rw [List.getLast?_eq_getElem?, hlen, List.getElem?_take_of_lt (by omega), List.getElem?_drop]
    congr 2
    omega

theorem flatMap_nth_items (m : Nat) :
    ((List.range m).flatMap fun i => (nth cursor limit s i).items) = s.take (m * limit) := by
  induction m with
  | zero => simp
  | succ m hi =>
    rw [List.range_succ, List.flatMap_append, hi, List.flatMap_singleton, nth_items, Nat.succ_mul,
      List.take_add]

-- How the page with the given number is requested.
def cursorAt (cursor : α → χ) (limit : Nat) (s : List α) (i : Nat) : Option χ :=
  if i = 0 then none else s[i * limit - 1]?.map cursor

variable (hlim : 0 < limit) (hd : (l.map key).Nodup)
  (hr : Serves r key cursor limit request fun _ => l)

include hlim hd hr in
theorem request_cursorAt (hi : i < count limit l.length) :
    request i (cursorAt cursor limit (ordered r key l) i) = .ok (nth cursor limit (ordered r key l) i) := by
  have hs := ascending_ordered (r := r) hd
  cases i with
  | zero =>
    refine (hr.first 0).trans ?_
    simp [answer, after, nth]
  | succ i =>
    have hi := ((lt_count_iff hlim).mp hi).resolve_left (by simp)
    have hpos : 0 < (i + 1) * limit := Nat.mul_pos (by simp) hlim
    have hj : (i + 1) * limit - 1 < (ordered r key l).length := by rw [length_ordered]; omega
    have ⟨a, ha⟩ : ∃ a, (ordered r key l)[(i + 1) * limit - 1]? = some a :=
      ⟨_, List.getElem?_eq_getElem hj⟩
    simp only [cursorAt, Nat.succ_ne_zero, if_false, ha, Option.map_some]
    refine (hr.next (i + 1) a).trans ?_
    rw [answer, after_getElem hs ha, Nat.sub_add_cancel hpos]
    rfl

include hlim in
theorem next_eq_cursorAt (hi : i + 1 < count limit s.length) :
    (nth cursor limit s i).next = cursorAt cursor limit s (i + 1) ∧
    ∃ c, cursorAt cursor limit s (i + 1) = some c := by
  have hj : (i + 1) * limit - 1 < s.length := by
    have := ((lt_count_iff hlim).mp hi).resolve_left (by simp)
    omega
  refine ⟨?_, cursor s[(i + 1) * limit - 1], ?_⟩
  · rw [nth_next hlim, if_pos hi]
    rfl
  · simp [cursorAt, List.getElem?_eq_getElem hj]

include hlim hd hr in
-- All pages can be received.
theorem follows_nth (m i : Nat) (hm : i + m < count limit l.length) :
    Follows request i (cursorAt cursor limit (ordered r key l) i)
      ((List.range' i (m + 1)).map (nth cursor limit (ordered r key l))) := by
  induction m generalizing i with
  | zero => exact .last <| request_cursorAt hlim hd hr hm
  | succ m hi =>
    have hn : i + 1 < count limit (ordered r key l).length := by
      rw [length_ordered]
      omega
    have ⟨hnext, c, hc⟩ : (nth cursor limit (ordered r key l) i).next = _ ∧ _ := next_eq_cursorAt hlim hn
    rw [List.range'_succ, List.map_cons]
    refine .next (request_cursorAt hlim hd hr (by omega)) (hnext.trans hc) ?_
    rw [← hc]
    exact hi (i + 1) (by omega)

include hlim hd hr in
-- And nothing else can be received.
theorem Follows.eq_nth (hf : Follows request i c ps) (hi : i < count limit l.length)
    (hc : c = cursorAt cursor limit (ordered r key l) i) :
    i + ps.length ≤ count limit l.length ∧
    ps = (List.range' i ps.length).map (nth cursor limit (ordered r key l)) := by
  induction hf with
  | last h =>
    subst hc
    have ha := Except.ok.inj <| h.symm.trans (request_cursorAt hlim hd hr hi)
    simp [ha]
    omega
  | @next j c a c' ps h hn _ ih =>
    subst hc
    have ha := Except.ok.inj <| h.symm.trans (request_cursorAt hlim hd hr hi)
    have hlt : j + 1 < count limit (ordered r key l).length := by
      by_contra hge
      rw [ha, nth_next hlim, if_neg hge] at hn
      contradiction
    obtain ⟨hnext, _⟩ : (nth cursor limit (ordered r key l) j).next = _ ∧ _ := next_eq_cursorAt hlim hlt
    rw [length_ordered] at hlt
    obtain ⟨hle, hps⟩ := ih hlt (hn.symm.trans <| ha ▸ hnext)
    rw [List.length_cons, List.range'_succ, List.map_cons, ← hps, ha]
    exact ⟨by omega, rfl⟩

include hlim in
theorem nth_next_eq_none (hi : i < count limit s.length) :
    (nth cursor limit s i).next = none ↔ i + 1 = count limit s.length := by
  by_cases h : i + 1 < count limit s.length
  case pos =>
    have ⟨hn, c, hc⟩ : (nth cursor limit s i).next = _ ∧ _ := next_eq_cursorAt hlim h
    rw [hn, hc]
    exact iff_of_false (by simp) (by omega)
  case neg =>
    rw [nth_next hlim, if_neg h]
    exact iff_of_true rfl (by omega)

theorem count_pos : 0 < count limit n :=
  Nat.lt_of_lt_of_le Nat.one_pos (Nat.le_max_left ..)

-- Pages up to some point are all of them if and only if the last one says so.
theorem complete_nth_iff (hl : 0 < limit) (hm : m < count limit s.length) :
    Complete ((List.range (m + 1)).map (nth cursor limit s)) ↔ m + 1 = count limit s.length := by
  rw [Complete, List.range_succ, List.map_append, List.map_singleton, List.getLast?_concat,
    Option.any_some, Option.isNone_iff_eq_none]
  exact nth_next_eq_none hl hm

include hlim hd hr in
-- A scan that has come to its end has received all pages, once.
theorem follows_complete_iff : Follows request 0 none ps ∧ Complete ps ↔
    ps = (List.range (count limit l.length)).map (nth cursor limit (ordered r key l)) := by
  have hpos : 0 < count limit l.length := count_pos
  have hlen : (ordered r key l).length = l.length := length_ordered
  constructor
  case mp =>
    intro ⟨hf, hc⟩
    have ⟨hle, hps⟩ := hf.eq_nth hlim hd hr hpos rfl
    obtain ⟨m, hm⟩ : ∃ m, ps.length = m + 1 := by
      cases hf <;> exact ⟨_, rfl⟩
    rw [hm, ← List.range_eq_range'] at hps
    have hlt : m < count limit (ordered r key l).length := by
      rw [hlen]
      omega
    have hcount := (complete_nth_iff hlim hlt).mp (hps ▸ hc)
    rw [hps, hcount, hlen]
  case mpr =>
    rintro rfl
    obtain ⟨m, hm⟩ : ∃ m, count limit l.length = m + 1 := ⟨count limit l.length - 1, by omega⟩
    rw [hm]
    refine ⟨?_, (complete_nth_iff hlim (by rw [hlen]; omega)).mpr (by rw [hlen, hm])⟩
    rw [List.range_eq_range']
    exact follows_nth hlim hd hr m 0 (by omega)

end Static

-- What holds if the table changes between two requests

section Dynamic

variable {cursor : α → χ} {limit : Nat} {request : Nat → Option χ → Except ε (Answer α χ)} {rows : Nat → List α}

-- The key from which a request goes on.
def From (key : α → κ) (cursor : α → χ) (c : Option χ) (k : Option κ) : Prop :=
  c = none ∧ k = none ∨ ∃ a, c = some (cursor a) ∧ k = some (key a)

omit [IsStrictTotalOrder κ r] in
theorem Serves.request_eq (h : Serves r key cursor limit request rows) (hk : From key cursor c k) :
    request i c = .ok (answer r key cursor limit k (rows i)) := by
  rcases hk with ⟨rfl, rfl⟩ | ⟨a, rfl, rfl⟩
  · exact h.first i
  · exact h.next i a

-- What a page has to do with the rows beyond a key.
structure Cuts (r : κ → κ → Prop) (key : α → κ) (cursor : α → χ) (k : Option κ) (l : List α) (a : Answer α χ) :
    Prop where
  mem       : ∀ x ∈ a.items, x ∈ l ∧ ∀ y ∈ k, r y (key x)
  ascending : Ascending r key a.items
  next      : ∀ c ∈ a.next, ∃ b, c = cursor b ∧ (∀ y ∈ k, r y (key b)) ∧
    (∀ x ∈ a.items, key x = key b ∨ r (key x) (key b)) ∧
    ∀ x ∈ l, (∀ y ∈ k, r y (key x)) → x ∈ a.items ∨ r (key b) (key x)
  last      : a.next = none → ∀ x ∈ l, (∀ y ∈ k, r y (key x)) → x ∈ a.items

theorem cuts_answer (hlim : 0 < limit) (h : (l.map key).Nodup) :
    Cuts r key cursor k l (answer r key cursor limit k l) := by
  have hs : Ascending r key (after r key k (ordered r key l)) := (ascending_ordered h).filter _
  have hm : ∀ x, x ∈ after r key k (ordered r key l) ↔ x ∈ l ∧ ∀ y ∈ k, r y (key x) := by simp [mem_after]
  unfold answer page
  generalize after r key k (ordered r key l) = t at hs hm
  have ht := List.take_append_drop limit t
  have hsplit : ∀ x ∈ t, x ∈ t.take limit ∨ x ∈ t.drop limit := by
    intro x hx
    rwa [← ht, List.mem_append] at hx
  refine ⟨fun x hx => (hm x).mp <| List.mem_of_mem_take hx, hs.sublist (List.take_sublist ..), ?_, ?_⟩
  case refine_1 =>
    intro c hc
    dsimp only at hc
    split at hc
    case isFalse => contradiction
    case isTrue hl =>
      have ⟨b, hb, hcb⟩ := Option.map_eq_some_iff.mp hc
      have ⟨init, hi⟩ := List.getLast?_eq_some_iff.mp hb
      have hs' := hs
      rw [← ht, hi] at hs'
      have ⟨hs₁, _, hs₂⟩ := List.pairwise_append.mp hs'
      have ⟨_, _, hs₁⟩ := List.pairwise_append.mp hs₁
      refine ⟨b, hcb.symm, ((hm b).mp <| List.mem_of_mem_take <| List.mem_of_getLast? hb).2, fun x hx => ?_,
        fun x hx hk => (hsplit x <| (hm x).mpr ⟨hx, hk⟩).imp_right fun hx => hs₂ b (by simp) x hx⟩
      rw [hi] at hx
      rcases List.mem_append.mp hx with hx | hx
      case inl => exact .inr <| hs₁ x hx b (by simp)
      case inr => exact .inl <| congrArg key (List.mem_singleton.mp hx)
  case refine_2 =>
    intro hn x hx hk
    have hx := (hm x).mpr ⟨hx, hk⟩
    by_cases hl : limit < t.length
    case neg => rwa [List.take_of_length_le (by omega)]
    case pos =>
      dsimp only at hn
      rw [if_pos hl, Option.map_eq_none_iff, List.getLast?_eq_none_iff, List.take_eq_nil_iff] at hn
      rcases hn with hn | hn
      · omega
      · simp [hn] at hx

variable (hlim : 0 < limit) (hd : ∀ i, ((rows i).map key).Nodup)
  (hr : Serves r key cursor limit request rows)

include hlim hd hr in
-- No row is received twice, and rows are received in order.
theorem Follows.ascending (hf : Follows request i c ps) (hk : From key cursor c k) :
    (∀ x ∈ ps.flatMap (·.items), ∀ y ∈ k, r y (key x)) ∧ Ascending r key (ps.flatMap (·.items)) := by
  induction hf generalizing k with
  | @last j c a h =>
    have ha := Except.ok.inj <| h.symm.trans (hr.request_eq hk)
    have hc : Cuts r key cursor k (rows j) a := ha ▸ cuts_answer hlim (hd j)
    simpa using ⟨fun x hx => (hc.mem x hx).2, hc.ascending⟩
  | @next j c a c' ps h hn _ ih =>
    have ha := Except.ok.inj <| h.symm.trans (hr.request_eq hk)
    have hc : Cuts r key cursor k (rows j) a := ha ▸ cuts_answer hlim (hd j)
    have ⟨b, hb, hkb, hitems, _⟩ := hc.next c' hn
    have ⟨hbeyond, hasc⟩ := ih (.inr ⟨b, congrArg some hb, rfl⟩)
    rw [List.flatMap_cons]
    refine ⟨fun x hx y hy => ?_, List.pairwise_append.mpr ⟨hc.ascending, hasc, fun x hx z hz => ?_⟩⟩
    · rcases List.mem_append.mp hx with hx | hx
      · exact (hc.mem x hx).2 y hy
      · exact trans_of r (hkb y hy) (hbeyond x hx _ rfl)
    · rcases hitems x hx with h | h
      · exact h ▸ hbeyond z hz _ rfl
      · exact trans_of r h (hbeyond z hz _ rfl)

include hlim hd hr in
-- Each page consists of rows that are in the table at the time.
theorem Follows.mem_rows (hf : Follows request i c ps) (hk : From key cursor c k)
    (hj : ps[j]? = some a) (hx : x ∈ a.items) : x ∈ rows (i + j) := by
  induction hf generalizing k j with
  | @last i c a' h =>
    have ha := Except.ok.inj <| h.symm.trans (hr.request_eq hk)
    have hc : Cuts r key cursor k (rows i) a' := ha ▸ cuts_answer hlim (hd i)
    cases j with
    | zero   => exact (hc.mem x (Option.some.inj hj ▸ hx)).1
    | succ j => simp at hj
  | @next i c a' c' ps h hn _ ih =>
    have ha := Except.ok.inj <| h.symm.trans (hr.request_eq hk)
    have hc : Cuts r key cursor k (rows i) a' := ha ▸ cuts_answer hlim (hd i)
    have ⟨b, hb, _⟩ := hc.next c' hn
    cases j with
    | zero   => exact (hc.mem x (Option.some.inj hj ▸ hx)).1
    | succ j =>
      have := ih (.inr ⟨b, congrArg some hb, rfl⟩) hj
      rwa [Nat.add_right_comm, Nat.add_assoc] at this

include hlim hd hr in
-- A scan that has come to its end has received every row that has always been there.
theorem Follows.complete (hf : Follows request i c ps) (hk : From key cursor c k) (hc : Complete ps)
    (hx : ∀ j < ps.length, ∃ a ∈ rows (i + j), key a = x) (hxk : ∀ y ∈ k, r y x) :
    ∃ a ∈ ps.flatMap (·.items), key a = x := by
  induction hf generalizing k with
  | @last i c a h =>
    have ha := Except.ok.inj <| h.symm.trans (hr.request_eq hk)
    have hcut : Cuts r key cursor k (rows i) a := ha ▸ cuts_answer hlim (hd i)
    have ⟨b, hb, hbx⟩ := hx 0 (by simp)
    have hn : a.next = none := by simpa [Complete] using hc
    refine ⟨b, ?_, hbx⟩
    simpa using hcut.last hn b hb (hbx ▸ hxk)
  | @next i c a c' ps h hn hf ih =>
    have ha := Except.ok.inj <| h.symm.trans (hr.request_eq hk)
    have hcut : Cuts r key cursor k (rows i) a := ha ▸ cuts_answer hlim (hd i)
    have ⟨d, hcd, _, _, hrest⟩ := hcut.next c' hn
    have ⟨b, hb, hbx⟩ := hx 0 (by simp)
    rw [List.flatMap_cons]
    rcases hrest b hb (hbx ▸ hxk) with hmem | hlt
    case inl => exact ⟨b, List.mem_append_left _ hmem, hbx⟩
    case inr =>
      have hps : ps ≠ [] := by cases hf <;> simp
      have hc' : Complete ps := by rwa [Complete, List.getLast?_cons_of_ne_nil hps] at hc
      have ⟨e, he, hex⟩ := ih (.inr ⟨d, congrArg some hcd, rfl⟩) hc' (fun j hj => ?_) (by simpa [hbx] using hlt)
      · exact ⟨e, List.mem_append_right _ he, hex⟩
      · have := hx (j + 1) (by simpa using hj)
        rwa [← Nat.add_assoc, Nat.add_right_comm] at this

end Dynamic

end Scan
