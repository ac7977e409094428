import Mathlib.Algebra.Order.BigOperators.Group.List
import Mathlib.Algebra.Order.Ring.Int
import Mathlib.Data.List.Induction
import Mathlib.Tactic.Linarith
import Mathlib.Tactic.Ring

-- Counting events in windows of a fixed length. A window is opened by the first event that is not in the previous one.
namespace FixedWindow

structure Window where
  count   : Nat
  resetAt : Int

-- An event is counted, with the reading of a clock.
def hit (length now : Int) : Option Window → Window
  | none   => ⟨1, now + length⟩
  | some w => if w.resetAt ≤ now then ⟨1, now + length⟩ else ⟨w.count + 1, w.resetAt⟩

-- The windows that some events belong to, each with its events.
def place (length : Int) (ws : List (List Int)) (now : Int) : List (List Int) :=
  match ws.getLast? with
  | none   => [[now]]
  | some w =>
    if w.head?.all (· + length ≤ now) then ws ++ [[now]]
    else ws.dropLast ++ [w ++ [now]]

def windows (length : Int) (events : List Int) : List (List Int) :=
  events.foldl (place length) []

-- The window after some events, and what is told to each of them.
def track (length : Int) (events : List Int) : List Window × Option Window :=
  events.foldl (fun (told, w) now => (told ++ [hit length now w], some (hit length now w))) ([], none)

-- The numbers of the events of a window
def tally (length : Int) (w : List Int) : List Window :=
  (List.range' 1 w.length).map (⟨·, w.head?.getD 0 + length⟩)

-- The events that are among the first ones of their windows
def admitted (max : Nat) (length : Int) (events : List Int) : List Int :=
  ((events.zip (track length events).1).filter (·.2.count ≤ max)).map (·.1)

-- The events of a window come before its end, and the next one is opened thereafter.
structure Cut (length : Int) (ws : List (List Int)) : Prop where
  opened : ∀ w ∈ ws, w ≠ []
  inside : ∀ w ∈ ws, ∀ n ∈ w.head?, ∀ m ∈ w.tail, m < n + length
  spaced : ws.Pairwise fun w w' => ∀ n ∈ w.head?, ∀ n' ∈ w'.head?, n + length ≤ n'

section

variable {length now : Int} {events : List Int} {ws : List (List Int)} {w : List Int}

theorem windows_append : windows length (events ++ [now]) = place length (windows length events) now := by
  simp [windows]

theorem track_append : track length (events ++ [now]) =
    ((track length events).1 ++ [hit length now (track length events).2],
      some (hit length now (track length events).2)) := by
  simp [track]

theorem length_track : (track length events).1.length = events.length := by
  induction events using List.reverseRecOn with
  | nil                              => rfl
  | append_singleton events now hi => simp [track_append, hi]

-- Either the event opens a window, or it is in the last one.
theorem place_cases (length : Int) (ws : List (List Int)) (now : Int) :
    (∀ w ∈ ws.getLast?, ∀ n ∈ w.head?, n + length ≤ now) ∧ place length ws now = ws ++ [[now]] ∨
    ∃ ws' w n, ws = ws' ++ [w] ∧ n ∈ w.head? ∧ now < n + length ∧ place length ws now = ws' ++ [w ++ [now]] := by
  cases ws using List.reverseRecOn with
  | nil => exact .inl ⟨by simp, rfl⟩
  | append_singleton ws' w =>
    by_cases h : ∀ n ∈ w.head?, n + length ≤ now
    case pos =>
      exact .inl ⟨by simpa using h,
        by simpa [place, Option.all_eq_true_iff_get] using fun hw => h _ (Option.get_mem hw)⟩
    case neg =>
      push Not at h
      have ⟨n, hn, hlt⟩ := h
      exact .inr ⟨ws', w, n, rfl, hn, hlt, by simp [place, Option.mem_def.mp hn, hlt]⟩

-- No event is lost, and none is counted twice.
theorem flatten_windows : (windows length events).flatten = events := by
  induction events using List.reverseRecOn with
  | nil => rfl
  | append_singleton events now hi =>
    rw [windows_append]
    rcases place_cases length (windows length events) now with ⟨_, h⟩ | ⟨ws', w, n, hw, _, _, h⟩
    case inl => simp [h, hi]
    case inr => rw [h, ← hi, hw]; simp

theorem Cut.snoc (c : Cut length ws) (h : ∀ w ∈ ws.getLast?, ∀ n ∈ w.head?, n + length ≤ now) (hl : 0 ≤ length) :
    Cut length (ws ++ [[now]]) where
  opened := List.forall_mem_append.mpr ⟨c.opened, by simp⟩
  inside := List.forall_mem_append.mpr ⟨c.inside, by simp⟩
  spaced := by
    refine List.pairwise_append.mpr ⟨c.spaced, List.pairwise_singleton .., fun w hw w' hw' => ?_⟩
    cases List.mem_singleton.mp hw'
    intro n hn n' hn'
    cases hn'
    cases ws using List.reverseRecOn with
    | nil => cases hw
    | append_singleton ws' last =>
      cases List.mem_append.mp hw with
      | inr hw =>
        cases List.mem_singleton.mp hw
        exact h w (by simp) n hn
      | inl hw =>
        -- The last window has been opened after all others.
        obtain ⟨m, hm⟩ := Option.isSome_iff_exists.mp <| List.isSome_head?.mpr <| c.opened last (by simp)
        have hs := (List.pairwise_append.mp c.spaced).2.2 w hw last (by simp) n hn m hm
        have hm := h last (by simp) m hm
        omega

theorem Cut.extend {n : Int} (c : Cut length (ws ++ [w])) (hn : n ∈ w.head?) (h : now < n + length) :
    Cut length (ws ++ [w ++ [now]]) := by
  have hw : w ≠ [] := c.opened w (by simp)
  have hh : (w ++ [now]).head? = w.head? := List.head?_append_of_ne_nil _ hw
  constructor
  case opened =>
    intro w' hw'
    cases List.mem_append.mp hw' with
    | inl hw' => exact c.opened w' (List.mem_append_left _ hw')
    | inr hw' => simp [List.mem_singleton.mp hw']
  case inside =>
    intro w' hw'
    cases List.mem_append.mp hw' with
    | inl hw' => exact c.inside w' (List.mem_append_left _ hw')
    | inr hw' =>
      cases List.mem_singleton.mp hw'
      rw [hh]
      intro n' hn' m hm
      obtain rfl := Option.mem_unique hn hn'
      rw [List.tail_append_of_ne_nil hw] at hm
      cases List.mem_append.mp hm with
      | inl hm => exact c.inside w (by simp) n hn m hm
      | inr hm => exact List.mem_singleton.mp hm ▸ h
  case spaced =>
    have ⟨h₁, _, h₂⟩ := List.pairwise_append.mp c.spaced
    refine List.pairwise_append.mpr ⟨h₁, List.pairwise_singleton .., fun w₁ hw₁ w₂ hw₂ => ?_⟩
    cases List.mem_singleton.mp hw₂
    rw [hh]
    exact h₂ w₁ hw₁ w (by simp)

theorem cut_windows (hl : 0 ≤ length) : Cut length (windows length events) := by
  induction events using List.reverseRecOn with
  | nil => exact ⟨nofun, nofun, .nil⟩
  | append_singleton events now hi =>
    rw [windows_append]
    rcases place_cases length (windows length events) now with ⟨hn, h⟩ | ⟨ws', w, n, hw, hn, hlt, h⟩
    case inl => exact h ▸ hi.snoc hn hl
    case inr => exact h ▸ (hw ▸ hi).extend hn hlt

theorem tally_append (hw : w ≠ []) :
    tally length (w ++ [now]) = tally length w ++ [⟨w.length + 1, w.head?.getD 0 + length⟩] := by
  cases w with
  | nil        => contradiction
  | cons n tl => simp [tally, List.range'_1_concat (n := tl.length + 1), Nat.add_comm 1]

-- The counter tells each event its number in its window, and when the window ends.
theorem track_eq (hl : 0 ≤ length) : track length events =
    ((windows length events).flatMap (tally length),
      (windows length events).getLast?.map fun w => ⟨w.length, w.head?.getD 0 + length⟩) := by
  induction events using List.reverseRecOn with
  | nil => rfl
  | append_singleton events now hi =>
    rw [track_append, hi, windows_append]
    rcases place_cases length (windows length events) now with ⟨hn, h⟩ | ⟨ws', w, n, hw, hn, hlt, h⟩
    case inl =>
      have hh : hit length now ((windows length events).getLast?.map fun w => ⟨w.length, w.head?.getD 0 + length⟩) =
          ⟨1, now + length⟩ := by
        cases hg : (windows length events).getLast? with
        | none   => rfl
        | some w =>
          have ⟨n, hw⟩ := Option.isSome_iff_exists.mp <| List.isSome_head?.mpr <|
            (cut_windows hl).opened w (List.mem_of_getLast? hg)
          simp [hit, hw, hn w hg n hw]
      simp [h, hh, tally]
    case inr =>
      have hw₀ : w ≠ [] := by
        rintro rfl
        cases hn
      have hd : w.head?.getD 0 = n := by simp [Option.mem_def.mp hn]
      have hh : hit length now (some ⟨w.length, w.head?.getD 0 + length⟩) = ⟨w.length + 1, w.head?.getD 0 + length⟩ :=
        if_neg (by simp [hd, hlt])
      rw [h, hw]
      simp [hh, tally_append hw₀]
      rw [Option.mem_def.mp hn]
      rfl

theorem told_eq (hl : 0 ≤ length) : (track length events).1 = (windows length events).flatMap (tally length) :=
  congrArg Prod.fst <| track_eq hl

theorem length_tally : (tally length w).length = w.length := by
  simp [tally]

theorem zip_tally (max : Nat) : ((w.zip (tally length w)).filter (·.2.count ≤ max)).map (·.1) = w.take max := by
  induction w using List.reverseRecOn with
  | nil => simp
  | append_singleton w now hi =>
    by_cases hw : w = []
    case pos =>
      subst hw
      cases max <;> simp [tally]
    case neg =>
      rw [tally_append hw, List.zip_append length_tally.symm, List.filter_append, List.map_append, hi, List.take_append]
      by_cases h : w.length + 1 ≤ max
      case pos =>
        have ⟨k, hk⟩ : ∃ k, max - w.length = k + 1 := ⟨max - w.length - 1, by omega⟩
        simp [h, hk]
      case neg =>
        have hk : max - w.length = 0 := by omega
        simp [h, hk]

theorem admitted_eq (max : Nat) (hl : 0 ≤ length) :
    admitted max length events = (windows length events).flatMap (·.take max) := by
  have h (ws : List (List Int)) : ((ws.flatten.zip (ws.flatMap (tally length))).filter (·.2.count ≤ max)).map (·.1) =
      ws.flatMap (·.take max) := by
    induction ws with
    | nil          => rfl
    | cons w ws hi =>
      rw [List.flatten_cons, List.flatMap_cons, List.zip_append length_tally.symm, List.filter_append, List.map_append,
        hi, zip_tally, List.flatMap_cons]
  rw [admitted, told_eq hl, ← h, flatten_windows]

-- Numbers that keep a distance within an interval are few.
theorem length_mul_le_of_spaced {ns : List Int} {lo hi : Int} (hs : ns.Pairwise (· + length ≤ ·))
    (hb : ∀ n ∈ ns, lo ≤ n ∧ n ≤ hi) (hle : lo ≤ hi + length) : ns.length * length ≤ hi + length - lo := by
  induction ns generalizing lo with
  | nil => simpa using hle
  | cons n ns hi' =>
    have ⟨hn, hs⟩ := List.pairwise_cons.mp hs
    have hb₀ := hb n List.mem_cons_self
    have hb' m (hm : m ∈ ns) : n + length ≤ m ∧ m ≤ hi := ⟨hn m hm, (hb m (List.mem_cons_of_mem _ hm)).2⟩
    have := hi' hs hb' (by omega)
    rw [List.length_cons]
    push_cast
    linarith

theorem length_flatMap_le {α β : Type*} {f : α → List β} {q : α → Prop} [DecidablePred q] {max : Nat} {l : List α}
    (hf : ∀ a ∈ l, (f a).length ≤ max) (hq : ∀ a ∈ l, ¬q a → f a = []) :
    (l.flatMap f).length ≤ max * (l.filter q).length := by
  induction l with
  | nil => simp
  | cons a l hi =>
    have hi := hi (fun b hb => hf b (List.mem_cons_of_mem _ hb)) (fun b hb => hq b (List.mem_cons_of_mem _ hb))
    have hf := hf a List.mem_cons_self
    rw [List.flatMap_cons, List.length_append]
    by_cases h : q a
    case pos =>
      rw [List.filter_cons_of_pos (by simpa), List.length_cons, Nat.mul_succ]
      omega
    case neg =>
      rw [List.filter_cons_of_neg (by simpa), hq a List.mem_cons_self h]
      simpa using hi

-- The heads of the windows that reach into an interval
theorem Cut.head_bounds {late m t n : Int} (c : Cut length ws) (he : ws.flatten.Pairwise (· ≤ · + late))
    (hw : w ∈ ws) (hn : n ∈ w.head?) (ht : t ∈ w) (hl : 0 < length) (h₀ : 0 ≤ late) (hm : m ≤ t ∧ t < m + length) :
    m - length + 1 ≤ n ∧ n ≤ m + length + late - 1 := by
  cases w with
  | nil        => cases ht
  | cons a tl =>
    cases hn
    cases List.mem_cons.mp ht with
    | inl h =>
      subst h
      omega
    | inr h =>
      have hi := c.inside _ hw _ rfl t h
      have hp := (List.pairwise_cons.mp <| he.sublist <| List.sublist_flatten_of_mem hw).1 t h
      omega

-- Not even where windows meet, more events are admitted in an interval, other than for those that come late.
theorem length_admitted_le {late m : Int} {k max : Nat} (hl : 0 < length) (he : events.Pairwise (· ≤ · + late))
    (h₀ : 0 ≤ late) (hk : late ≤ k * length) :
    ((admitted max length events).filter fun t => m ≤ t ∧ t < m + length).length ≤ max * (k + 2) := by
  let q (w : List Int) := ∃ t ∈ w, m ≤ t ∧ t < m + length
  have c : Cut length (windows length events) := cut_windows hl.le
  have he : (windows length events).flatten.Pairwise (· ≤ · + late) := by rwa [flatten_windows]
  -- Each of the windows has a head of its own.
  have hh : (((windows length events).filter q).map (·.head?.getD 0)).Pairwise (· + length ≤ ·) := by
    refine List.pairwise_map.mpr <| (c.spaced.filter _).imp_of_mem fun hw hw' h => ?_
    have hs {w} (hw : w ∈ (windows length events).filter q) : w.head?.getD 0 ∈ w.head? := by
      have hw := c.opened _ (List.mem_of_mem_filter hw)
      simp [List.head?_eq_some_head hw]
    exact h _ (hs hw) _ (hs hw')
  have hb : ∀ n ∈ ((windows length events).filter q).map (·.head?.getD 0),
      m - length + 1 ≤ n ∧ n ≤ m + length + late - 1 := by
    intro n hn
    have ⟨w, hw, hn⟩ := List.mem_map.mp hn
    have ⟨hw, hq⟩ := List.mem_filter.mp hw
    have ⟨t, ht, hm⟩ := of_decide_eq_true hq
    refine c.head_bounds he hw ?_ ht hl h₀ hm
    simp [← hn, List.head?_eq_some_head (c.opened _ hw)]
  have hn := length_mul_le_of_spaced hh hb (by omega)
  rw [List.length_map] at hn
  have hn : ((windows length events).filter q).length < k + 3 := by
    by_contra hg
    have : ((k : Int) + 3) * length ≤ ((windows length events).filter q).length * length :=
      Int.mul_le_mul_of_nonneg_right (by omega) hl.le
    linarith
  rw [admitted_eq max hl.le, List.filter_flatMap]
  refine le_trans (length_flatMap_le (q := q) ?bound ?apart) (Nat.mul_le_mul_left _ (by omega))
  case bound =>
    intro w _
    exact le_trans (List.length_filter_le _ _) (List.length_take_le _ _)
  case apart =>
    intro w _ hq
    refine List.filter_eq_nil_iff.mpr fun t ht hm => hq ⟨t, List.mem_of_mem_take ht, of_decide_eq_true hm⟩

end

end FixedWindow
