import Mergepay.Data.Scan
import Mergepay.Data.Table
import Mergepay.Errors
import Mergepay.Schema
import Mergepay.Text.Base64
import Mergepay.Text.Number
import Mergepay.Text.Unicode

namespace Mergepay.History

open Text

inductive SortOrder
  | asc
  | desc
  deriving DecidableEq

def SortOrder.direct (order : SortOrder) (lt : α → α → Prop) (a b : α) : Prop :=
  match order with
  | .asc  => lt a b
  | .desc => lt b a

-- A point in the order of a list.
structure CursorPosition where
  createdAt : Time
  id        : String
  deriving DecidableEq

structure PageMeta where
  nextCursor : Option String
  hasMore    : Bool
  limit      : Nat
  order      : SortOrder
  deriving DecidableEq

structure Page (α : Type) where
  items    : List α
  pageMeta : PageMeta
  deriving DecidableEq

-- The times that can be represented by a `Date`.
def maxTime : Nat :=
  8640000000000000

-- The time of a `Date` that is constructed from a number.
def timeClip (t : Rat) : Option Time :=
  if |t| ≤ maxTime then some (if 0 ≤ t then t.floor else -(-t).floor) else none

def encodeCursor (p : CursorPosition) : String :=
  .ofList <| Base64.encode <| Utf8.encode <| Number.render p.createdAt ++ '_' :: p.id.toList

def decodeCursor (cursor : JsString) : Option CursorPosition := do
  let decoded := Utf8.decode (Base64.decode cursor)
  -- Only the first separator counts, and it may not come first.
  let separator ← decoded.findIdx? (· = '_')
  if separator = 0 then none
  let timestamp ← Number.number (decoded.take separator)
  let id := decoded.drop (separator + 1)
  if id = [] then none
  let createdAt ← timeClip timestamp
  return { createdAt, id := .ofList id }

def requireCursor (cursor : Option String) : Except Failure (Option CursorPosition) :=
  match cursor with
  | none        => .ok none
  | some cursor =>
    if cursor = "" then .ok none
    else match decodeCursor (JsString.ofString cursor) with
      | none   => .error <| .badRequest "invalid_cursor" "The provided cursor is invalid"
      | some p => .ok (some p)

-- Identifiers are generated, and not empty. Creation times are represented by a `Date`.
structure Position extends CursorPosition where
  generated : id ≠ ""
  dated     : createdAt.natAbs ≤ maxTime
  deriving DecidableEq

-- The rows of a table that is listed page by page.
class Listed (α : Type) where
  position : α → Position

abbrev key [Listed α] (a : α) : CursorPosition :=
  (Listed.position a).toCursorPosition

section Query

-- The order in which the database compares identifiers.
variable (lt : String → String → Prop) [DecidableRel lt]

instance (order : SortOrder) (lt : α → α → Prop) [DecidableRel lt] : DecidableRel (order.direct lt) := by
  intro a b
  cases order <;> exact inferInstanceAs (Decidable (lt _ _))

def cursorOrderBy (order : SortOrder) (p q : CursorPosition) : Prop :=
  order.direct (· < ·) p.createdAt q.createdAt ∨ p.createdAt = q.createdAt ∧ order.direct lt p.id q.id

instance (order : SortOrder) : DecidableRel (cursorOrderBy lt order) :=
  fun _ _ => inferInstanceAs (Decidable (_ ∨ _))

def cursorFilter [Listed α] (position : Option CursorPosition) (order : SortOrder) : Where α :=
  match position with
  | none   => .all []
  | some p => .any [
      .holds fun a => order.direct (· < ·) p.createdAt (key a).createdAt,
      .all [.holds fun a => (key a).createdAt = p.createdAt, .holds fun a => order.direct lt p.id (key a).id]
    ]

def findMany [Listed α] (rows : List α) (w : Where α) (order : SortOrder) (skip take : Nat) : List α :=
  ((Scan.ordered (cursorOrderBy lt order) key (rows.filter w.selects)).drop skip).take take

def takeForPage (limit : Nat) : Nat :=
  limit + 1

def buildPage [Listed α] (rows : List α) (limit : Nat) (order : SortOrder) : Page α :=
  let hasMore : Bool := limit < rows.length
  let items := if hasMore then rows.take limit else rows
  {
    items
    pageMeta := {
      nextCursor := if hasMore then items.getLast?.map fun a => encodeCursor (key a) else none
      hasMore, limit, order
    }
  }

end Query

-- What a client gets hold of.
def Page.answer (p : Page α) : Scan.Answer α String :=
  ⟨p.items, p.pageMeta.nextCursor⟩

section Cursor

theorem timeClip_intCast {t : Time} (h : t.natAbs ≤ maxTime) : timeClip t = some t := by
  have hb : |(t : Rat)| ≤ maxTime := by
    rw [← Int.cast_abs, Int.abs_eq_natAbs]
    exact_mod_cast h
  rw [timeClip, if_pos hb]
  congr 1
  split
  case isTrue  => exact Rat.floor_intCast t
  case isFalse =>
    have h : (-(t : Rat)).floor = -t := by
      rw [← Int.cast_neg]
      exact Rat.floor_intCast _
    rw [h, Int.neg_neg]

theorem findIdx?_separator (t : Time) (l : List Char) :
    (Number.render t ++ '_' :: l).findIdx? (· = '_') = some (Number.render t).length := by
  have hn : (Number.render t).findIdx? (· = '_') = none := by
    refine List.findIdx?_eq_none_iff.mpr fun c hc => ?_
    rcases Number.mem_render hc with rfl | h
    · rfl
    · simpa using Number.ne_of_isDigit h (d := '_') rfl
  rw [List.findIdx?_append, hn]
  simp [List.findIdx?_cons]

-- A cursor is decoded to the position for which it has been encoded.
theorem decodeCursor_encodeCursor (p : Position) :
    decodeCursor (JsString.ofString (encodeCursor p.toCursorPosition)) = some p.toCursorPosition := by
  have hid : p.id.toList ≠ [] := fun h => p.generated <| String.toList_eq_nil_iff.mp h
  have ht : (Number.render p.createdAt).length ≠ 0 := by
    simp [Number.render, Nat.toDigits_ne_nil]
  have hn : Number.number (Number.render p.createdAt) = some (p.createdAt : Rat) :=
    Number.number_render <| Nat.lt_of_le_of_lt p.dated (by decide)
  have hd : (Number.render p.createdAt ++ '_' :: p.id.toList).drop ((Number.render p.createdAt).length + 1) =
      p.id.toList := by
    rw [← List.drop_drop, List.drop_left, List.drop_one, List.tail_cons]
  simp only [decodeCursor, encodeCursor, Base64.decode_encode, Utf8.decode_encode,
    findIdx?_separator, List.take_left, hd, hn, timeClip_intCast p.dated, Option.bind_eq_bind, Option.bind_some,
    if_neg ht, if_neg hid, Option.pure_def, String.ofList_toList]

theorem encodeCursor_ne_empty (p : Position) : encodeCursor p.toCursorPosition ≠ "" := by
  intro h
  have hd := decodeCursor_encodeCursor p
  have he : decodeCursor (JsString.ofString "") = none := rfl
  simp [h, he] at hd

theorem requireCursor_encodeCursor (p : Position) :
    requireCursor (some (encodeCursor p.toCursorPosition)) = .ok (some p.toCursorPosition) := by
  rw [requireCursor, if_neg (encodeCursor_ne_empty p), decodeCursor_encodeCursor]

end Cursor

section Pages

variable {lt : String → String → Prop} [DecidableRel lt] {order : SortOrder} [Listed α] {rows l : List α}

instance (order : SortOrder) (lt : α → α → Prop) [IsStrictTotalOrder α lt] :
    IsStrictTotalOrder α (order.direct lt) := by
  cases order with
  | asc  => exact inferInstanceAs (IsStrictTotalOrder α lt)
  | desc => exact inferInstanceAs (IsStrictTotalOrder α (Function.swap lt))

instance [IsStrictTotalOrder String lt] : IsStrictTotalOrder CursorPosition (cursorOrderBy lt order) where
  irrefl p h := by
    rcases h with h | ⟨_, h⟩
    · exact irrefl_of (order.direct (· < ·)) _ h
    · exact irrefl_of (order.direct lt) _ h
  trans p q s hpq hqs := by
    rcases hpq with hpq | ⟨hpq, hi⟩ <;> rcases hqs with hqs | ⟨hqs, hi'⟩
    · exact .inl <| trans_of (order.direct (· < ·)) hpq hqs
    · exact .inl <| hqs ▸ hpq
    · exact .inl <| hpq ▸ hqs
    · exact .inr ⟨hpq.trans hqs, trans_of (order.direct lt) hi hi'⟩
  trichotomous p q hpq hqp := by
    have hc : p.createdAt = q.createdAt := by
      rcases trichotomous_of (order.direct (· < ·)) p.createdAt q.createdAt with h | h | h
      · exact absurd (.inl h) hpq
      · exact h
      · exact absurd (.inl h) hqp
    have hi : p.id = q.id := by
      rcases trichotomous_of (order.direct lt) p.id q.id with h | h | h
      · exact absurd (.inr ⟨hc, h⟩) hpq
      · exact h
      · exact absurd (.inr ⟨hc.symm, h⟩) hqp
    cases p
    congr

@[simp]
theorem selects_cursorFilter {position : Option CursorPosition} {a : α} :
    (cursorFilter lt position order).selects a = position.all fun p => cursorOrderBy lt order p (key a) := by
  cases position with
  | none   => rfl
  | some p =>
    rw [Option.all_some, Bool.eq_iff_iff, decide_eq_true_iff]
    simp [cursorFilter, cursorOrderBy, @eq_comm _ (key a).createdAt]

theorem buildPage_answer : (buildPage l limit order).answer = Scan.page (fun a => encodeCursor (key a)) limit l := by
  simp only [buildPage, Page.answer, Scan.page, decide_eq_true_eq]
  split
  case isTrue  => rfl
  case isFalse => rw [List.take_of_length_le (by omega)]

-- A page depends on as many rows as are fetched, since the last one tells whether there is more.
theorem buildPage_congr (h : rows.take (takeForPage limit) = l.take (takeForPage limit)) :
    buildPage rows limit order = buildPage l limit order := by
  have hl : limit < rows.length ↔ limit < l.length := by
    have := congrArg List.length h
    simp only [List.length_take, takeForPage] at this
    omega
  have hi : (if limit < rows.length then rows.take limit else rows) = if limit < l.length then l.take limit else l := by
    split
    case isTrue hr =>
      have ht (l : List α) : l.take limit = (l.take (takeForPage limit)).take limit := by
        rw [List.take_take, takeForPage, Nat.min_eq_left (Nat.le_succ _)]
      rw [if_pos (hl.mp hr), ht rows, ht l, h]
    case isFalse hr =>
      have hr' := hl.not.mp hr
      rwa [if_neg hr', ← List.take_of_length_le (Nat.le_succ_of_le (Nat.le_of_not_lt hr)),
        ← List.take_of_length_le (Nat.le_succ_of_le (Nat.le_of_not_lt hr'))]
  simp only [hl] at hi
  simp only [buildPage, decide_eq_true_eq, hl, hi]

theorem buildPage_take : (buildPage (l.take (takeForPage limit)) limit order).answer =
    Scan.page (fun a => encodeCursor (key a)) limit l := by
  rw [buildPage_congr (l := l) (by rw [List.take_take, Nat.min_self]), buildPage_answer]

theorem buildPage_hasMore (h : 0 < limit) : (buildPage rows limit order).pageMeta.hasMore =
    (buildPage rows limit order).answer.next.isSome := by
  by_cases hl : limit < rows.length
  case neg => simp [buildPage, Page.answer, hl]
  case pos =>
    have hne : rows.take limit ≠ [] := by
      rw [Ne, List.take_eq_nil_iff, ← List.length_eq_zero_iff]
      omega
    simp [buildPage, Page.answer, hl, List.getLast?_eq_some_getLast hne]

-- Rows of a table, as entries of another one.
theorem map_after [Listed β] {f : α → β} (hf : ∀ a, key (f a) = key a) (position : Option CursorPosition) :
    (Scan.after (cursorOrderBy lt order) key position (Scan.ordered (cursorOrderBy lt order) key l)).map f =
      Scan.after (cursorOrderBy lt order) key position (Scan.ordered (cursorOrderBy lt order) key (l.map f)) := by
  have hk : (key ∘ f : α → CursorPosition) = key := funext hf
  rw [Scan.ordered_map, hk, Scan.after, Scan.after, List.filter_map]
  congr 2
  funext a
  simp [hf]

variable (lt order limit) in
-- The page that is merged from windows of several tables.
def mergedPage (tables : List (List α)) (position : Option CursorPosition) : Page α :=
  let windows := tables.flatMap fun t =>
    (Scan.after (cursorOrderBy lt order) key position (Scan.ordered (cursorOrderBy lt order) key t)).take
      (takeForPage limit)
  buildPage (Scan.ordered (cursorOrderBy lt order) key windows) limit order

variable [IsStrictTotalOrder String lt]

-- A page after a position is a window of the selected rows.
theorem findMany_cursorFilter {filters : List (Where α)} (hd : (rows.map key).Nodup)
    (position : Option CursorPosition) (skip n : Nat) :
    findMany lt rows (.all (filters ++ [cursorFilter lt position order])) order skip n =
      ((Scan.after (cursorOrderBy lt order) key position
        (Scan.ordered (cursorOrderBy lt order) key (rows.filter (Where.all filters).selects))).drop skip).take n := by
  have hs : rows.filter (Where.all (filters ++ [cursorFilter lt position order])).selects =
      (rows.filter (Where.all filters).selects).filter fun a =>
        position.all fun p => cursorOrderBy lt order p (key a) := by
    rw [List.filter_filter]
    congr 1
    funext a
    simp [Bool.and_comm]
  rw [findMany, hs, Scan.ordered_filter (hd.sublist <| List.filter_sublist.map key)]
  rfl

-- A merged page is a page of all rows of the tables.
theorem mergedPage_answer {tables : List (List α)} (hd : (tables.flatten.map key).Nodup)
    (position : Option CursorPosition) : (mergedPage lt order limit tables position).answer =
      Scan.answer (cursorOrderBy lt order) key (fun a => encodeCursor (key a)) limit position tables.flatten := by
  rw [mergedPage, buildPage_congr (Scan.take_merge_after hd position (takeForPage limit)), buildPage_answer]
  rfl

end Pages

-- Cursors are read as they have been written, and whatever is read is a position

theorem timeClip_bounds (h : timeClip t = some d) : d.natAbs ≤ maxTime := by
  rw [timeClip] at h
  split at h
  case isFalse  => contradiction
  case isTrue hb =>
    obtain ⟨hl, hu⟩ := abs_le.mp hb
    rw [← Option.some.inj h]
    split
    case isTrue ht =>
      have h₁ : 0 ≤ t.floor := Rat.le_floor_iff.mpr ht
      have h₂ : (t.floor : Rat) ≤ maxTime := (Rat.floor_le t).trans hu
      have h₂ : t.floor ≤ maxTime := by exact_mod_cast h₂
      omega
    case isFalse ht =>
      have h₁ : 0 ≤ (-t).floor := Rat.le_floor_iff.mpr (neg_nonneg.mpr (not_le.mp ht).le)
      have h₂ : ((-t).floor : Rat) ≤ maxTime := (Rat.floor_le (-t)).trans (neg_le.mp hl)
      have h₂ : (-t).floor ≤ maxTime := by exact_mod_cast h₂
      omega

theorem decodeCursor_valid (h : decodeCursor cursor = some p) : p.createdAt.natAbs ≤ maxTime ∧ p.id ≠ "" := by
  simp only [decodeCursor, Option.bind_eq_bind, Option.pure_def, Option.bind_none] at h
  obtain ⟨separator, _, h⟩ := Option.bind_eq_some_iff.mp h
  split at h
  case isTrue  => contradiction
  case isFalse =>
    obtain ⟨timestamp, _, h⟩ := Option.bind_eq_some_iff.mp h
    split at h
    case isTrue     => contradiction
    case isFalse hi =>
      obtain ⟨createdAt, hc, h⟩ := Option.bind_eq_some_iff.mp h
      rw [← Option.some.inj h]
      exact ⟨timeClip_bounds hc, fun he => hi (String.ofList_eq_empty_iff.mp he)⟩

theorem encodeCursor_injective : Function.Injective fun p : Position => encodeCursor p.toCursorPosition := by
  intro p q h
  have hp := decodeCursor_encodeCursor p
  rw [show encodeCursor p.toCursorPosition = _ from h, decodeCursor_encodeCursor q] at hp
  cases p
  cases q
  cases Option.some.inj hp
  rfl

theorem cursor_codec :
    (∀ p : Position, decodeCursor (JsString.ofString (encodeCursor p.toCursorPosition)) = some p.toCursorPosition) ∧
    Function.Injective (fun p : Position => encodeCursor p.toCursorPosition) ∧
    ∀ cursor p, decodeCursor cursor = some p → (p.createdAt.natAbs ≤ maxTime ∧ p.id ≠ "") ∧
      decodeCursor (JsString.ofString (encodeCursor p)) = some p := by
  refine ⟨decodeCursor_encodeCursor, encodeCursor_injective, fun cursor p h => ?_⟩
  have hv := decodeCursor_valid h
  exact ⟨hv, decodeCursor_encodeCursor { p with generated := hv.2, dated := hv.1 }⟩

-- A cursor that nobody has been given, with a space in front of the time
theorem cursor_codec_sample : decodeCursor (JsString.ofString "IDE3X2Ff") = some ⟨17, "a_"⟩ ∧
    decodeCursor (JsString.ofString (encodeCursor ⟨17, "a_"⟩)) = some ⟨17, "a_"⟩ := by
  have h : decodeCursor (JsString.ofString "IDE3X2Ff") = some ⟨17, "a_"⟩ := by decide +kernel
  exact ⟨h, (cursor_codec.2.2 _ _ h).2⟩

end Mergepay.History
