import Mergepay.Data.Except
import Mergepay.History.Pagination

namespace Mergepay.History

-- The pages that a client receives by following `nextCursor`, up to some point. The table may be different
-- each time.
inductive Scanned (request : Nat → Option String → Except Failure (Page α)) :
    Nat → Option String → List (Page α) → Prop
  | last : request i c = .ok page → Scanned request i c [page]
  | next : request i c = .ok page → page.pageMeta.hasMore = true → page.pageMeta.nextCursor = some c' →
    Scanned request (i + 1) (some c') pages → Scanned request i c (page :: pages)

-- The client stops because there is no more.
def Finished (pages : List (Page α)) : Prop :=
  pages.getLast?.any (¬·.pageMeta.hasMore)

-- The page to which a client comes by following `nextCursor` as often as given.
def Reached (request : Nat → Option String → Except Failure (Page α)) (k : Nat) (page : Page α) : Prop :=
  ∃ pages, Scanned request 0 none pages ∧ pages.length = k + 1 ∧ pages[k]? = some page

abbrev received (pages : List (Page α)) : List α :=
  pages.flatMap (·.items)

abbrev idOf [Listed α] (a : α) : String :=
  (key a).id

section Spec

variable [Listed α] (lt : String → String → Prop) (order : SortOrder) (limit : Nat)
  (request : Nat → Option String → Except Failure (Page α))

abbrev InOrder (l : List α) : Prop :=
  l.Pairwise fun a b => cursorOrderBy lt order (key a) (key b)

-- There is exactly one way to scan the rows. It takes as many pages as necessary and receives every row
-- once, in order, and each page tells whether a later one has rows.
def ExactScan (rows : List α) : Prop :=
  ∃ pages : List (Page α), (∀ pages', Scanned request 0 none pages' ∧ Finished pages' ↔ pages' = pages) ∧
    pages.length = max 1 ((rows.length + limit - 1) / limit) ∧
    (received pages).Perm rows ∧ InOrder lt order (received pages) ∧
    ∀ (i : Nat) (page : Page α), pages[i]? = some page →
      (page.pageMeta.hasMore = true ↔ ∃ j > i, ∃ page' ∈ pages[j]?, page'.items ≠ [])

-- No row is received twice. Once the scan is finished, every row that has always been there has been
-- received.
def StableScan (rows : Nat → List α) : Prop :=
  ∀ pages : List (Page α), Scanned request 0 none pages →
    InOrder lt order (received pages) ∧ ((received pages).map idOf).Nodup ∧
    (∀ (i : Nat) (page : Page α), pages[i]? = some page → ∀ a ∈ page.items, a ∈ rows i) ∧
    (Finished pages → ∀ id, (∀ i < pages.length, ∃ a ∈ rows i, idOf a = id) →
      ∃ a ∈ received pages, idOf a = id)

-- Rows keep their creation times.
def Fixed (rows : Nat → List α) : Prop :=
  ∀ i j, ∀ a ∈ rows i, ∀ b ∈ rows j, idOf a = idOf b → key a = key b

end Spec

section Scan

variable {request : Nat → Option String → Except Failure (Page α)} {pages : List (Page α)}

def answers (request : Nat → Option String → Except Failure (Page α)) (i : Nat) (c : Option String) :
    Except Failure (Scan.Answer α String) :=
  Page.answer <$> request i c

-- Pages tell whether there is a cursor.
def Honest (request : Nat → Option String → Except Failure (Page α)) : Prop :=
  ∀ i c page, request i c = .ok page → page.pageMeta.hasMore = page.pageMeta.nextCursor.isSome

-- What a client gets hold of is all that there is to such a page.
theorem Page.eq_of_answer {p q : Page α} (h : p.answer = q.answer)
    (hp : p.pageMeta.hasMore = p.pageMeta.nextCursor.isSome)
    (hq : q.pageMeta.hasMore = q.pageMeta.nextCursor.isSome) (hl : p.pageMeta.limit = q.pageMeta.limit)
    (ho : p.pageMeta.order = q.pageMeta.order) : p = q := by
  rcases p with ⟨items, next, more, limit, order⟩
  rcases q with ⟨items', next', more', limit', order'⟩
  simp only [Page.answer, Scan.Answer.mk.injEq] at h hp hq hl ho
  simp [h, hp, hq, hl, ho]

theorem Scanned.follows (h : Scanned request i c pages) :
    Scan.Follows (answers request) i c (pages.map Page.answer) := by
  induction h with
  | last h           => exact .last (Except.map_eq_ok.mpr ⟨_, h, rfl⟩)
  | next h _ hn _ ih => exact .next (Except.map_eq_ok.mpr ⟨_, h, rfl⟩) hn ih

theorem Scanned.ne_nil (h : Scanned request i c pages) : pages ≠ [] := by
  cases h <;> exact List.cons_ne_nil _ _

theorem Scanned.honest (hh : Honest request) (h : Scanned request i c pages) (hp : page ∈ pages) :
    page.pageMeta.hasMore = page.pageMeta.nextCursor.isSome := by
  induction h with
  | last h => exact hh _ _ page (List.mem_singleton.mp hp ▸ h)
  | next h _ _ _ ih =>
    rcases List.mem_cons.mp hp with rfl | hp
    · exact hh _ _ page h
    · exact ih hp

theorem Scanned.mem_request (h : Scanned request i c pages) (hp : page ∈ pages) :
    ∃ i c, request i c = .ok page := by
  induction h with
  | last h => exact ⟨_, _, List.mem_singleton.mp hp ▸ h⟩
  | next h _ _ _ ih =>
    rcases List.mem_cons.mp hp with rfl | hp
    · exact ⟨_, _, h⟩
    · exact ih hp

theorem finished_iff (hh : Honest request) (h : Scanned request i c pages) :
    Finished pages ↔ Scan.Complete (pages.map Page.answer) := by
  have hl : pages.getLast?.any (¬·.pageMeta.hasMore) = pages.getLast?.any (·.answer.next.isNone) := by
    cases hp : pages.getLast? with
    | none      => rfl
    | some page => simp [h.honest hh (List.mem_of_getLast? hp), Page.answer]
  rw [Finished, hl, Scan.Complete, List.getLast?_map, Option.any_map]

theorem exists_scanned (hh : Honest request) (h : Scan.Follows (answers request) i c ps) :
    ∃ pages, Scanned request i c pages ∧ pages.map Page.answer = ps := by
  induction h with
  | @last i c a h =>
    have ⟨page, hp, ha⟩ := Except.map_eq_ok.mp h
    exact ⟨[page], .last hp, by simp [ha]⟩
  | @next i c a c' ps h hn _ ih =>
    have ⟨page, hp, ha⟩ := Except.map_eq_ok.mp h
    have ⟨pages, hs, hps⟩ := ih
    have hn : page.pageMeta.nextCursor = some c' := by
      rw [← hn, ← ha]
      rfl
    refine ⟨page :: pages, .next hp ?_ hn hs, by simp [ha, hps]⟩
    rw [hh i c page hp, hn]
    rfl

-- A client that receives the same answers receives the same pages.
theorem Scanned.eq (h : Scanned request i c pages) (h' : Scanned request i c pages')
    (hm : pages.map Page.answer = pages'.map Page.answer) : pages = pages' := by
  induction h generalizing pages' with
  | last h =>
    cases h' with
    | last h'         => rw [Except.ok.inj <| h.symm.trans h']
    | next _ _ _ hs'  => exact absurd (List.map_eq_nil_iff.mp (List.cons.inj hm).2.symm) hs'.ne_nil
  | next h _ hn hs ih =>
    cases h' with
    | last _ => exact absurd (List.map_eq_nil_iff.mp (List.cons.inj hm).2) hs.ne_nil
    | next h' _ hn' hs' =>
      obtain rfl := Except.ok.inj <| h.symm.trans h'
      obtain rfl := Option.some.inj <| hn.symm.trans hn'
      rw [ih hs' (List.cons.inj hm).2]

variable [Listed α] {lt : String → String → Prop} [DecidableRel lt] [IsStrictTotalOrder String lt]
  {order : SortOrder} {limit : Nat} {rows : Nat → List α} {l : List α}

abbrev cursorOf (a : α) : String :=
  encodeCursor (key a)

theorem nodup_keys {rows : List α} (h : (rows.map idOf).Nodup) : (rows.map key).Nodup := by
  rw [show rows.map idOf = (rows.map key).map (·.id) by rw [List.map_map]; rfl] at h
  exact h.of_map

-- Rows keep their keys if they are filtered.
theorem nodup_matching {rows : List α} (h : (rows.map idOf).Nodup) (p : α → Bool) :
    ((rows.filter p).map key).Nodup :=
  nodup_keys <| h.sublist <| List.filter_sublist.map idOf

-- What is selected from the tables.
theorem Fixed.filter {table : Nat → List α} (h : Fixed table) (p : Nat → α → Bool) :
    Fixed fun i => (table i).filter (p i) :=
  fun i j a ha b hb => h i j a (List.mem_of_mem_filter ha) b (List.mem_of_mem_filter hb)

omit [Listed α] in
theorem received_eq (pages : List (Page α)) : received pages = (pages.map Page.answer).flatMap (·.items) := by
  rw [List.flatMap_map]
  rfl

omit [Listed α] in
-- Whether a page of a list is followed by another one with rows.
theorem next_isSome_iff {cursor : α → String} (hlim : 0 < limit) (hi : i < Scan.count limit l.length) :
    (Scan.nth cursor limit l i).next.isSome ↔
      ∃ j > i, j < Scan.count limit l.length ∧ (Scan.nth cursor limit l j).items ≠ [] := by
  have hnone : (Scan.nth cursor limit l i).next = none ↔ _ := Scan.nth_next_eq_none hlim hi
  constructor
  case mp =>
    intro hs
    have hne : i + 1 ≠ Scan.count limit l.length := fun he => by simp [hnone.mpr he] at hs
    refine ⟨i + 1, Nat.lt_succ_self i, by omega, ?_⟩
    have hlt : i + 1 < Scan.count limit l.length := by omega
    have hlt := ((Scan.lt_count_iff hlim).mp hlt).resolve_left (Nat.succ_ne_zero i)
    rw [Scan.nth_items, Ne, List.take_eq_nil_iff, List.drop_eq_nil_iff]
    omega
  case mpr =>
    intro ⟨j, hj, hjc, _⟩
    rw [Option.isSome_iff_ne_none, Ne, hnone]
    omega

theorem exactScan_of_serves (hlim : 0 < limit) (hd : (l.map key).Nodup) (hh : Honest request)
    (hr : Scan.Serves (cursorOrderBy lt order) key cursorOf limit (answers request) fun _ => l) :
    ExactScan lt order limit request l := by
  have hall (ps) : Scan.Follows (answers request) 0 none ps ∧ Scan.Complete ps ↔ _ :=
    Scan.follows_complete_iff hlim hd hr
  have hlen : (Scan.ordered (cursorOrderBy lt order) key l).length = l.length := Scan.length_ordered
  have hasc := Scan.ascending_ordered (r := cursorOrderBy lt order) hd
  have hperm : (Scan.ordered (cursorOrderBy lt order) key l).Perm l := List.perm_insertionSort _ l
  generalize Scan.ordered (cursorOrderBy lt order) key l = s at hall hlen hasc hperm
  have ⟨hf, hc⟩ := (hall _).mpr rfl
  have ⟨pages, hs, hps⟩ := exists_scanned hh hf
  have hreceived : received pages = s := by
    rw [received_eq, hps, List.flatMap_map, Scan.flatMap_nth_items,
      List.take_of_length_le (hlen ▸ Scan.le_count_mul hlim)]
  have hpages : pages.length = Scan.count limit l.length := by
    have := congrArg List.length hps
    rwa [List.length_map, List.length_map, List.length_range] at this
  refine ⟨pages, fun pages' => ?_, hpages, hreceived ▸ hperm, hreceived ▸ hasc, fun i page hi => ?_⟩
  case refine_1 =>
    constructor
    · intro ⟨hs', hf'⟩
      refine hs'.eq hs ?_
      rw [hps]
      exact (hall _).mp ⟨hs'.follows, (finished_iff hh hs').mp hf'⟩
    · rintro rfl
      exact ⟨hs, (finished_iff hh hs).mpr (hps ▸ hc)⟩
  case refine_2 =>
    have answer (j : Nat) (hj : j < Scan.count limit l.length) :
        pages[j]?.map Page.answer = some (Scan.nth cursorOf limit s j) := by
      rw [← List.getElem?_map, hps, List.getElem?_map, List.getElem?_range hj]
      rfl
    have hlt : i < Scan.count limit l.length := hpages ▸ (List.getElem?_eq_some_iff.mp hi).1
    have ha := answer i hlt
    rw [hi, Option.map_some, Option.some_inj] at ha
    rw [hs.honest hh (List.mem_of_getElem? hi)]
    change page.answer.next.isSome = true ↔ _
    rw [ha, next_isSome_iff hlim (hlen.symm ▸ hlt), hlen]
    refine exists_congr fun j => and_congr_right fun _ => ?_
    constructor
    · intro ⟨hj, hne⟩
      have ⟨page', hp', ha'⟩ := Option.map_eq_some_iff.mp (answer j hj)
      refine ⟨page', hp', ?_⟩
      rwa [← ha'] at hne
    · intro ⟨page', hp', hne⟩
      have hj : j < Scan.count limit l.length := hpages ▸ (List.getElem?_eq_some_iff.mp hp').1
      have ha' := answer j hj
      rw [Option.mem_def.mp hp', Option.map_some, Option.some_inj] at ha'
      refine ⟨hj, ?_⟩
      rwa [← ha']

theorem Reached.answer (h : Reached request k page) (hlim : 0 < limit) (hd : (l.map key).Nodup)
    (hr : Scan.Serves (cursorOrderBy lt order) key cursorOf limit (answers request) fun _ => l) :
    k < Scan.count limit l.length ∧
    page.answer = Scan.nth cursorOf limit (Scan.ordered (cursorOrderBy lt order) key l) k := by
  have ⟨pages, hs, hl, hk⟩ := h
  have ⟨hle, hps⟩ := hs.follows.eq_nth hlim hd hr Scan.count_pos rfl
  rw [List.length_map, hl] at hle hps
  have ha : (pages.map Page.answer)[k]? = some page.answer := by rw [List.getElem?_map, hk, Option.map_some]
  rw [hps, List.getElem?_map, List.getElem?_range' (Nat.lt_succ_self k), Nat.zero_add, Nat.one_mul] at ha
  exact ⟨by omega, (Option.some.inj ha).symm⟩

theorem exists_reached (hlim : 0 < limit) (hd : (l.map key).Nodup) (hh : Honest request)
    (hr : Scan.Serves (cursorOrderBy lt order) key cursorOf limit (answers request) fun _ => l)
    (hk : k < Scan.count limit l.length) : ∃ page, Reached request k page := by
  have ⟨pages, hs, hps⟩ := exists_scanned hh (Scan.follows_nth hlim hd hr k 0 (by omega))
  have hl : pages.length = k + 1 := by
    have := congrArg List.length hps
    rwa [List.length_map, List.length_map, List.length_range'] at this
  exact ⟨pages[k], pages, hs, hl, List.getElem?_eq_getElem (by omega)⟩

theorem stableScan_of_serves (hlim : 0 < limit) (hd : ∀ i, ((rows i).map key).Nodup) (hc : Fixed rows)
    (hh : Honest request)
    (hr : Scan.Serves (cursorOrderBy lt order) key cursorOf limit (answers request) rows) :
    StableScan lt order request rows := by
  intro pages hs
  have hstart : Scan.From key (cursorOf : α → String) none none := .inl ⟨rfl, rfl⟩
  have horder : InOrder lt order (received pages) := by
    rw [received_eq]
    exact (hs.follows.ascending hlim hd hr hstart).2
  have hmem (i : Nat) (page : Page α) (hi : pages[i]? = some page) (a : α) (ha : a ∈ page.items) :
      a ∈ rows i := by
    have hi : (pages.map Page.answer)[i]? = some page.answer := by rw [List.getElem?_map, hi, Option.map_some]
    simpa using hs.follows.mem_rows hlim hd hr hstart hi ha
  refine ⟨horder, ?_, hmem, fun hf id hid => ?_⟩
  case refine_1 =>
    have hrows : ∀ a ∈ received pages, ∃ i, a ∈ rows i := by
      intro a ha
      have ⟨page, hp, ha⟩ := List.mem_flatMap.mp ha
      have ⟨i, hi⟩ := List.mem_iff_getElem?.mp hp
      exact ⟨i, hmem i page hi a ha⟩
    have hkeys := Scan.Ascending.nodup_keys horder
    rw [show (received pages).map idOf = ((received pages).map key).map (·.id) by rw [List.map_map]; rfl]
    refine List.Nodup.map_on (fun p hp q hq he => ?_) hkeys
    obtain ⟨a, ha, rfl⟩ := List.mem_map.mp hp
    obtain ⟨b, hb, rfl⟩ := List.mem_map.mp hq
    have ⟨i, hi⟩ := hrows a ha
    have ⟨j, hj⟩ := hrows b hb
    exact hc i j a hi b hj he
  case refine_2 =>
    have hpos : 0 < pages.length := List.length_pos_iff.mpr hs.ne_nil
    have ⟨a, ha, hia⟩ := hid 0 hpos
    have hall : ∀ i < pages.length, ∃ b ∈ rows i, key b = key a := by
      intro i hi
      have ⟨b, hb, hib⟩ := hid i hi
      exact ⟨b, hb, hc i 0 b hb a ha <| hib.trans hia.symm⟩
    have ⟨b, hb, hk⟩ : ∃ b ∈ received pages, key b = key a := by
      rw [received_eq]
      refine hs.follows.complete hlim hd hr hstart ((finished_iff hh hs).mp hf) (fun j hj => ?_) (by simp)
      rw [List.length_map] at hj
      simpa using hall j hj
    exact ⟨b, hb, (congrArg (·.id) hk).trans hia⟩

-- Requests whose pages depend on the position that the cursor stands for
section Pages

variable {page : Nat → Option CursorPosition → Page α} (h : ∀ i c, request i c = page i <$> requireCursor c)

include h in
omit [Listed α] in
theorem honest_of_pages (hp : ∀ i position, (page i position).pageMeta.hasMore =
    (page i position).answer.next.isSome) : Honest request := by
  intro i c p hc
  rw [h] at hc
  obtain ⟨position, _, rfl⟩ := Except.map_eq_ok.mp hc
  exact hp i position

include h in
omit [IsStrictTotalOrder String lt] in
theorem serves_of_pages (ha : ∀ i position, (page i position).answer =
    Scan.answer (cursorOrderBy lt order) key cursorOf limit position (rows i)) :
    Scan.Serves (cursorOrderBy lt order) key cursorOf limit (answers request) rows where
  first i := by
    rw [← ha, answers, h]
    rfl
  next i a := by
    rw [← ha, answers, h, cursorOf, requireCursor_encodeCursor]
    rfl

end Pages

-- A page of the selected rows.
theorem answer_findMany {rows : List α} {filters : List (Where α)} (hd : (rows.map key).Nodup)
    (position : Option CursorPosition) :
    (buildPage (findMany lt rows (.all (filters ++ [cursorFilter lt position order])) order 0
      (takeForPage limit)) limit order).answer =
      Scan.answer (cursorOrderBy lt order) key cursorOf limit position
        (rows.filter (Where.all filters).selects) := by
  rw [findMany_cursorFilter hd, List.drop_zero, buildPage_take]
  rfl

end Scan

end Mergepay.History
