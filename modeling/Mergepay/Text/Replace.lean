import Mathlib.Data.List.TakeWhile
import Mergepay.Text.JsString

-- Replacing the matches of patterns in strings
namespace Text

-- A pattern sees the unit in front of it. It yields what a match is replaced with, and the length of the match.
abbrev Pattern := Option UInt16 → JsString → Option (JsString × Nat)

namespace Pattern

def replaceFrom (m : Pattern) : Option UInt16 → Nat → JsString → JsString
  | _, _, []         => []
  | prev, 0, c :: l  =>
    match m prev (c :: l) with
    | some (r, n) => r ++ replaceFrom m (some c) (n - 1) l
    | none        => c :: replaceFrom m (some c) 0 l
  | _, n + 1, c :: l => replaceFrom m (some c) n l

def replaceAll (m : Pattern) (l : JsString) : JsString :=
  replaceFrom m none 0 l

def space : UInt16 := 0x20

def bracket : UInt16 := 0x5D

-- A text that what follows is separated from
def Margin (p : JsString) : Prop :=
  p = [] ∨ ∃ q, p = q ++ [space]

-- What is found in front of a space does not depend on what follows behind it.
def Settled (m : Pattern) (F : JsString → Prop) (b : JsString) : Prop :=
  ∀ prev, (∀ t, F t → m prev (b ++ space :: t) = none) ∨
    ∃ r n, 0 < n ∧ n ≤ b.length ∧ ∀ t, F t → m prev (b ++ space :: t) = some (r, n)

-- A match reaches over the space, takes in the word that follows, and leaves a bracket.
def Pending (m : Pattern) (F : JsString → Prop) (word : UInt16 → Bool) (b : JsString) : Prop :=
  ∃ r, ∀ prev t, F t → t ≠ [] →
    m prev (b ++ space :: t) = some (r ++ [bracket], b.length + 1 + (t.takeWhile word).length)

section Scan

variable {m : Pattern} {F : JsString → Prop} {word : UInt16 → Bool} {prev : Option UInt16} {p t : JsString}

theorem replaceFrom_skip (prev : Option UInt16) (l t : JsString) :
    ∃ prev', replaceFrom m prev l.length (l ++ t) = replaceFrom m prev' 0 t := by
  induction l generalizing prev with
  | nil         => exact ⟨prev, rfl⟩
  | cons c l hi => exact hi (some c)

theorem replaceFrom_none (h : m prev (c :: t) = none) :
    replaceFrom m prev 0 (c :: t) = c :: replaceFrom m (some c) 0 t := by
  rw [replaceFrom, h]

theorem replaceFrom_some (h : m prev (c :: t) = some (r, n)) :
    replaceFrom m prev 0 (c :: t) = r ++ replaceFrom m (some c) (n - 1) t := by
  rw [replaceFrom, h]

theorem replaceFrom_pending (h : Pending m F word p) (prev : Option UInt16) :
    ∃ q, ∀ t, F t → t ≠ [] → ∃ prev',
      replaceFrom m prev 0 (p ++ space :: t) = q ++ bracket :: replaceFrom m prev' 0 (t.dropWhile word) := by
  have ⟨r, hr⟩ := h
  have ⟨c, u, hu⟩ : ∃ c u, p ++ [space] = c :: u := List.exists_cons_of_ne_nil (by simp)
  have hlen : u.length = p.length := by simpa using (congrArg List.length hu).symm
  refine ⟨r, fun t ht hn => ?_⟩
  have hl : p ++ space :: t = c :: (u ++ t) := by
    rw [← List.cons_append, ← hu, List.append_assoc]
    rfl
  have hm := hr prev t ht hn
  have ⟨prev', hs⟩ := @replaceFrom_skip m (some c) (u ++ t.takeWhile word) (t.dropWhile word)
  have ha : u ++ t.takeWhile word ++ t.dropWhile word = u ++ t := by
    rw [List.append_assoc, List.takeWhile_append_dropWhile]
  have hk : p.length + 1 + (t.takeWhile word).length - 1 = (u ++ t.takeWhile word).length := by
    rw [List.length_append, hlen]
    omega
  refine ⟨prev', ?_⟩
  rw [hl] at hm ⊢
  rw [replaceFrom_some hm, hk, ← ha, hs, List.append_assoc]
  rfl

-- The matches in front of a space are found one after the other, until one of them is pending.
theorem replaceFrom_space (h : ∀ b, Settled m F b ∨ Pending m F word b) (prev : Option UInt16) (n : Nat)
    (hn : n ≤ p.length) :
    (∃ q, ∀ t, F t → replaceFrom m prev n (p ++ space :: t) = q ++ space :: replaceFrom m (some space) 0 t) ∨
    (∃ b q, Pending m F word b ∧ ∀ t, F t → t ≠ [] → ∃ prev',
      replaceFrom m prev n (p ++ space :: t) = q ++ bracket :: replaceFrom m prev' 0 (t.dropWhile word)) := by
  induction p generalizing n prev with
  | nil =>
    obtain rfl : n = 0 := Nat.le_zero.mp hn
    rcases h [] with hs | hp
    · rcases hs prev with hn | ⟨r, n, h₁, h₂, _⟩
      · exact .inl ⟨[], fun t ht => replaceFrom_none (hn t ht)⟩
      · exact absurd (h₁.trans_le h₂) (Nat.lt_irrefl 0)
    · have ⟨q, hq⟩ := replaceFrom_pending hp prev
      exact .inr ⟨[], q, hp, hq⟩
  | cons c p hi =>
    cases n with
    | succ n =>
      exact hi (some c) n (Nat.le_of_succ_le_succ hn)
    | zero =>
      rcases h (c :: p) with hs | hp
      · rcases hs prev with hn | ⟨r, n, h₁, h₂, hm⟩
        · rcases hi (some c) 0 (Nat.zero_le _) with ⟨q, hq⟩ | ⟨b, q, hp, hq⟩
          · refine .inl ⟨c :: q, fun t ht => ?_⟩
            exact (replaceFrom_none (hn t ht)).trans (congrArg _ (hq t ht))
          · refine .inr ⟨b, c :: q, hp, fun t ht hne => ?_⟩
            have ⟨prev', he⟩ := hq t ht hne
            exact ⟨prev', (replaceFrom_none (hn t ht)).trans (congrArg _ he)⟩
        · have hle : n - 1 ≤ p.length := Nat.sub_le_of_le_add h₂
          rcases hi (some c) (n - 1) hle with ⟨q, hq⟩ | ⟨b, q, hp, hq⟩
          · refine .inl ⟨r ++ q, fun t ht => ?_⟩
            exact (replaceFrom_some (hm t ht)).trans <| (congrArg (r ++ ·) (hq t ht)).trans (List.append_assoc ..).symm
          · refine .inr ⟨b, r ++ q, hp, fun t ht hne => ?_⟩
            have ⟨prev', he⟩ := hq t ht hne
            exact ⟨prev', (replaceFrom_some (hm t ht)).trans <| (congrArg (r ++ ·) he).trans (List.append_assoc ..).symm⟩
      · have ⟨q, hq⟩ := replaceFrom_pending hp prev
        exact .inr ⟨c :: p, q, hp, hq⟩

-- Without pending matches, the text in front of a space is replaced on its own.
theorem replaceFrom_settled (h : ∀ b, Settled m (fun _ => True) b) (prev : Option UInt16) (p : JsString) :
    ∃ q, ∀ t, replaceFrom m prev 0 (p ++ space :: t) = q ++ space :: replaceFrom m (some space) 0 t := by
  rcases @replaceFrom_space m _ (fun _ => false) p (fun b => .inl (h b)) prev 0 (Nat.zero_le p.length) with
    ⟨q, hq⟩ | ⟨b, _, ⟨r, hr⟩, _⟩
  · exact ⟨q, fun t => hq t trivial⟩
  · have hr := hr none [space] trivial (List.cons_ne_nil _ _)
    rcases h b none with hn | ⟨r', n, _, hle, hs⟩
    · exact nomatch (hn [space] trivial).symm.trans hr
    · have he := (Prod.mk.inj (Option.some.inj ((hs [space] trivial).symm.trans hr))).2
      omega

theorem replaceFrom_congr {prev' : Option UInt16} (h : ∀ l, m prev l = m prev' l) (n : Nat) (l : JsString) :
    replaceFrom m prev n l = replaceFrom m prev' n l := by
  cases l with
  | nil      => cases n <;> rfl
  | cons c l =>
    cases n with
    | zero   => rw [replaceFrom, replaceFrom, h]
    | succ n => rfl

theorem replaceAll_margin (h : ∀ b, Settled m (fun _ => True) b) (hs : ∀ l, m (some space) l = m none l)
    (hp : Margin p) : Margin (replaceAll m p) ∧ ∀ t, replaceAll m (p ++ t) = replaceAll m p ++ replaceAll m t := by
  rcases hp with rfl | ⟨p, rfl⟩
  · exact ⟨.inl rfl, fun _ => rfl⟩
  · have ⟨q, hq⟩ := replaceFrom_settled h none p
    have ht t : replaceAll m (p ++ [space] ++ t) = q ++ [space] ++ replaceAll m t := by
      rw [List.append_assoc, List.singleton_append, replaceAll, hq, replaceFrom_congr hs, List.append_assoc]
      rfl
    have hn : replaceAll m (p ++ [space]) = q ++ [space] := by
      have := ht []
      rwa [List.append_nil, show replaceAll m [] = [] from rfl, List.append_nil] at this
    exact ⟨.inr ⟨q, hn⟩, fun t => by rw [ht, hn]⟩

-- Where no match starts, nothing is replaced.
theorem replaceFrom_append {w : JsString} (h : ∀ u, u <:+ w → u ≠ [] → ∀ prev, m prev (u ++ t) = none)
    (prev : Option UInt16) : ∃ prev', replaceFrom m prev 0 (w ++ t) = w ++ replaceFrom m prev' 0 t := by
  induction w generalizing prev with
  | nil         => exact ⟨prev, rfl⟩
  | cons c w hi =>
    have ⟨prev', he⟩ := hi (fun u hu => h u (hu.trans (List.suffix_cons c w))) (some c)
    exact ⟨prev', (replaceFrom_none (h _ List.suffix_rfl (List.cons_ne_nil c w) prev)).trans (congrArg _ he)⟩

-- Replacements that are not longer than what they replace do not lengthen a text.
theorem replaceFrom_length (h : ∀ prev l r n, m prev l = some (r, n) → r.length ≤ n ∧ n ≤ l.length)
    (prev : Option UInt16) (n : Nat) (l : JsString) : (replaceFrom m prev n l).length ≤ l.length - n := by
  induction l generalizing n prev with
  | nil         => cases n <;> exact Nat.zero_le _
  | cons c l hi =>
    cases n with
    | succ n => exact (hi (some c) n).trans_eq (Nat.add_sub_add_right ..).symm
    | zero   =>
      match hm : m prev (c :: l) with
      | some (r, n) =>
        have ⟨h₁, h₂⟩ := h prev (c :: l) r n hm
        have hi := hi (some c) (n - 1)
        rw [replaceFrom_some hm, List.length_append]
        simp only [List.length_cons] at h₂ ⊢
        omega
      | none =>
        rw [replaceFrom_none hm]
        exact Nat.succ_le_succ (hi (some c) 0)

end Scan

end Pattern

def lowerCase (u : UInt16) : UInt16 :=
  if 0x41 ≤ u ∧ u ≤ 0x5A then u + 0x20 else u

-- A label in any case, a separator, spaces, and a word that is taken in. What is put in its place depends on the
-- part in front of the word.
structure Marker where
  labels      : List JsString
  separator   : UInt16 → Bool
  word        : UInt16 → Bool
  replacement : JsString → JsString

namespace Marker

variable (k : Marker)

def find (l label : JsString) : Option (JsString × Nat) :=
  let rest := (l.drop label.length).tail
  let word := (rest.dropWhile CharClass.isSpace).takeWhile k.word
  let n := label.length + 1 + (rest.takeWhile CharClass.isSpace).length
  if (l.take label.length).map lowerCase = label ∧ (l.drop label.length).head?.any k.separator ∧ word ≠ [] then
    some (k.replacement (l.take n), n + word.length)
  else
    none

def pattern : Pattern :=
  fun _ l => k.labels.findSome? (k.find l)

def replaceAll (l : JsString) : JsString :=
  k.pattern.replaceAll l

-- A letter that stands for any word
def probe : UInt16 := 0x78

-- The words of a marker contain letters and no spaces, its separators are no letters, and a bracket is left.
structure Regular : Prop where
  word      : ∀ u, k.word u = true → CharClass.isSpace u = false
  letter    : k.word probe = true
  separator : k.separator probe = false
  closes    : ∀ l, ∃ r, k.replacement l = r ++ [Pattern.bracket]

-- A word behind the text is taken in.
def Takes (p : JsString) : Prop :=
  k.replaceAll (p ++ [probe]) ≠ k.replaceAll p ++ [probe]

-- What follows starts with a word, in which no label that contains a space could be continued.
structure Fits (t : JsString) : Prop where
  head  : ∀ c ∈ t.head?, CharClass.isSpace c = false ∧ k.word c = true
  label : ∀ label ∈ k.labels, Pattern.space ∈ label → ∀ c ∈ t.take label.length, k.separator c = false

variable {k}

section List

variable {p : UInt16 → Bool} {l t : JsString}

theorem dropWhile_append_of_neg (h : ¬∀ u ∈ l, p u = true) (t : JsString) :
    (l ++ t).dropWhile p = l.dropWhile p ++ t ∧ (l ++ t).takeWhile p = l.takeWhile p := by
  induction l with
  | nil => exact absurd nofun h
  | cons u l hi =>
    by_cases hu : p u = true
    · have hi := hi fun hl => h (List.forall_mem_cons.mpr ⟨hu, hl⟩)
      simp [hu, hi]
    · simp [hu]

theorem takeWhile_append_cons (h : p u = false) (l t : JsString) : (l ++ u :: t).takeWhile p = l.takeWhile p := by
  induction l with
  | nil => simp [h]
  | cons v l hi => by_cases hv : p v = true <;> simp [hv, hi]

theorem dropWhile_append_cons (h : p u = false) (l t : JsString) :
    (l ++ u :: t).dropWhile p = l.dropWhile p ++ u :: t := by
  induction l with
  | nil => simp [h]
  | cons v l hi => by_cases hv : p v = true <;> simp [hv, hi]

theorem spaces_of_head (h : ∀ c ∈ t.head?, CharClass.isSpace c = false) :
    t.takeWhile CharClass.isSpace = [] ∧ t.dropWhile CharClass.isSpace = t := by
  cases t with
  | nil      => exact ⟨rfl, rfl⟩
  | cons c t => simp [h c rfl]

end List

theorem find_short (hr : k.Regular) {b label : JsString} (hl : label.length ≤ b.length) :
    (∀ t, k.Fits t → k.find (b ++ Pattern.space :: t) label = none) ∨
    (∃ r n, 0 < n ∧ n ≤ b.length ∧ ∀ t, k.Fits t → k.find (b ++ Pattern.space :: t) label = some (r, n)) ∨
    ∃ r, ∀ t, k.Fits t → t ≠ [] → k.find (b ++ Pattern.space :: t) label =
      some (r ++ [Pattern.bracket], b.length + 1 + (t.takeWhile k.word).length) := by
  set d := b.drop label.length with hd
  have htake t : (b ++ Pattern.space :: t).take label.length = b.take label.length := List.take_append_of_le_length hl
  have hdrop t : (b ++ Pattern.space :: t).drop label.length = d ++ Pattern.space :: t := List.drop_append_of_le_length hl
  have hhead t : (d ++ Pattern.space :: t).head? = (d ++ [Pattern.space]).head? := by cases d <;> rfl
  have hrest t : (d ++ Pattern.space :: t).tail = (d ++ [Pattern.space]).tail ++ t := by cases d <;> simp
  by_cases hc : (b.take label.length).map lowerCase = label ∧ (d ++ [Pattern.space]).head?.any k.separator
  case neg =>
    refine .inl fun t _ => if_neg fun h => hc ?_
    rw [htake, hdrop, hhead] at h
    exact ⟨h.1, h.2.1⟩
  case pos =>
    set e := (d ++ [Pattern.space]).tail with he
    have hlen : label.length + 1 + e.length = b.length + 1 := by
      simp only [he, hd, List.length_tail, List.length_append, List.length_drop, List.length_singleton]
      omega
    have hfind t : k.find (b ++ Pattern.space :: t) label =
        if ((e ++ t).dropWhile CharClass.isSpace).takeWhile k.word ≠ [] then
          some (k.replacement ((b ++ Pattern.space :: t).take (label.length + 1 + ((e ++ t).takeWhile CharClass.isSpace).length)),
            label.length + 1 + ((e ++ t).takeWhile CharClass.isSpace).length +
              (((e ++ t).dropWhile CharClass.isSpace).takeWhile k.word).length)
        else none := by
      simp only [find, htake, hdrop, hhead, hrest, hc, true_and]
    by_cases hall : ∀ u ∈ e, CharClass.isSpace u = true
    case pos =>
      have ⟨r, hr⟩ := hr.closes (b ++ [Pattern.space])
      refine .inr (.inr ⟨r, fun t ht hn => ?_⟩)
      have ⟨hs, hs'⟩ := spaces_of_head fun c hc => (ht.head c hc).1
      have ht' : t.takeWhile k.word ≠ [] := by
        match t, hn with
        | c :: t, _ => simp [(ht.head c rfl).2]
      have hb : (b ++ Pattern.space :: t).take (b.length + 1) = b ++ [Pattern.space] := by
        rw [List.take_length_add_append]
        rfl
      rw [hfind, List.dropWhile_append_of_pos hall, List.takeWhile_append_of_pos hall, hs, hs', List.append_nil, hlen,
        if_pos ht', hb, hr]
    case neg =>
      have hne : d ≠ [] := by
        intro hn
        rw [he, hn] at hall
        exact hall nofun
      have he' : e = d.tail ++ [Pattern.space] := List.tail_append_of_ne_nil hne
      have hd' : ¬∀ u ∈ d.tail, CharClass.isSpace u = true := fun h => hall <| by
        rw [he']
        exact List.forall_mem_append.mpr ⟨h, List.forall_mem_singleton.mpr rfl⟩
      have happ t : e ++ t = d.tail ++ Pattern.space :: t := by
        rw [he', List.append_assoc]
        rfl
      have hw : k.word Pattern.space = false := Bool.eq_false_iff.mpr fun h => absurd (hr.word _ h) (by decide)
      have hle : label.length + 1 + (d.tail.takeWhile CharClass.isSpace).length +
          ((d.tail.dropWhile CharClass.isSpace).takeWhile k.word).length ≤ b.length := by
        have h₁ : ((d.tail.dropWhile CharClass.isSpace).takeWhile k.word).length ≤ _ :=
          (List.takeWhile_prefix k.word).length_le
        have h₂ := congrArg List.length (@List.takeWhile_append_dropWhile _ CharClass.isSpace d.tail)
        rw [List.length_append] at h₂
        rw [he', List.length_append, List.length_singleton] at hlen
        omega
      simp only [hfind, happ, (dropWhile_append_of_neg hd' _).1, (dropWhile_append_of_neg hd' _).2,
        takeWhile_append_cons hw]
      by_cases hn : (d.tail.dropWhile CharClass.isSpace).takeWhile k.word = []
      case pos => exact .inl fun t _ => if_neg (not_not.mpr hn)
      case neg =>
        refine .inr (.inl ⟨k.replacement (b.take (label.length + 1 + (d.tail.takeWhile CharClass.isSpace).length)), _, ?_,
          hle, fun t _ => ?_⟩)
        · omega
        · rw [if_pos hn, List.take_append_of_le_length (by omega)]

theorem find_long {b label : JsString} (hm : label ∈ k.labels) (hl : b.length < label.length) (ht : k.Fits t) :
    k.find (b ++ Pattern.space :: t) label = none := by
  refine if_neg fun ⟨h₁, h₂, _⟩ => ?_
  have ⟨i, hi⟩ := Nat.exists_eq_add_of_lt hl
  have hlen : label.length - b.length = i + 1 := by omega
  have hsp : Pattern.space ∈ label := by
    have h : Pattern.space ∈ (b ++ Pattern.space :: t).take label.length := by
      simp [List.take_append, hlen]
    rw [← h₁]
    exact List.mem_map.mpr ⟨_, h, by decide⟩
  rw [List.drop_append, List.drop_eq_nil_of_le hl.le, hlen, List.nil_append, List.drop_succ_cons, List.head?_drop] at h₂
  obtain ⟨c, hc, hs⟩ := (Option.any_eq_true ..).mp h₂
  have hm' : c ∈ t.take label.length := by
    have ⟨hlt, he⟩ := List.getElem?_eq_some_iff.mp hc
    exact he ▸ List.mem_take_iff_getElem.mpr ⟨i, by omega, rfl⟩
  exact absurd hs (Bool.eq_false_iff.mp (ht.label label hm hsp c hm'))

-- The first label that matches is the same, whatever follows.
theorem pattern_cases (hr : k.Regular) (b : JsString) :
    k.pattern.Settled k.Fits b ∨ k.pattern.Pending k.Fits k.word b := by
  have h : ∀ labels : List JsString, (∀ label ∈ labels, label ∈ k.labels) →
      (∀ t, k.Fits t → labels.findSome? (k.find (b ++ Pattern.space :: t)) = none) ∨
      (∃ r n, 0 < n ∧ n ≤ b.length ∧ ∀ t, k.Fits t → labels.findSome? (k.find (b ++ Pattern.space :: t)) = some (r, n)) ∨
      ∃ r, ∀ t, k.Fits t → t ≠ [] → labels.findSome? (k.find (b ++ Pattern.space :: t)) =
        some (r ++ [Pattern.bracket], b.length + 1 + (t.takeWhile k.word).length) := by
    intro labels hl
    induction labels with
    | nil => exact .inl fun _ _ => rfl
    | cons label labels hi =>
      have ⟨hlabel, hl⟩ := List.forall_mem_cons.mp hl
      have hf : (∀ t, k.Fits t → k.find (b ++ Pattern.space :: t) label = none) ∨
          (∃ r n, 0 < n ∧ n ≤ b.length ∧ ∀ t, k.Fits t → k.find (b ++ Pattern.space :: t) label = some (r, n)) ∨
          ∃ r, ∀ t, k.Fits t → t ≠ [] → k.find (b ++ Pattern.space :: t) label =
            some (r ++ [Pattern.bracket], b.length + 1 + (t.takeWhile k.word).length) := by
        by_cases hle : label.length ≤ b.length
        case pos => exact find_short hr hle
        case neg => exact .inl fun t ht => find_long hlabel (Nat.lt_of_not_le hle) ht
      rcases hf with hf | ⟨r, n, h₁, h₂, hf⟩ | ⟨r, hf⟩
      · rcases hi hl with hi | ⟨r, n, h₁, h₂, hi⟩ | ⟨r, hi⟩
        · exact .inl fun t ht => by rw [List.findSome?_cons, hf t ht, hi t ht]
        · exact .inr (.inl ⟨r, n, h₁, h₂, fun t ht => by rw [List.findSome?_cons, hf t ht, hi t ht]⟩)
        · exact .inr (.inr ⟨r, fun t ht hn => by rw [List.findSome?_cons, hf t ht, hi t ht hn]⟩)
      · exact .inr (.inl ⟨r, n, h₁, h₂, fun t ht => by rw [List.findSome?_cons, hf t ht]⟩)
      · exact .inr (.inr ⟨r, fun t ht hn => by rw [List.findSome?_cons, hf t ht hn]⟩)
  rcases h k.labels (fun _ => id) with h | ⟨r, n, h₁, h₂, h⟩ | ⟨r, h⟩
  · exact .inl fun _ => .inl h
  · exact .inl fun _ => .inr ⟨r, n, h₁, h₂, h⟩
  · exact .inr ⟨r, fun _ => h⟩

theorem replaceFrom_prev (prev prev' : Option UInt16) (n : Nat) (l : JsString) :
    k.pattern.replaceFrom prev n l = k.pattern.replaceFrom prev' n l := by
  cases l <;> cases n <;> rfl

theorem replaceAll_probe (hr : k.Regular) : k.replaceAll [probe] = [probe] := by
  have hn : k.pattern none [probe] = none := by
    refine List.findSome?_eq_none_iff.mpr fun label _ => if_neg fun ⟨_, h, _⟩ => ?_
    cases label with
    | nil            => simp [hr.separator] at h
    | cons u label => simp at h
  exact Pattern.replaceFrom_none hn

theorem fits_nil : k.Fits [] :=
  ⟨nofun, fun _ _ _ _ hc => by simp at hc⟩

theorem fits_probe (hr : k.Regular) : k.Fits [probe] where
  head c hc := by
    obtain rfl := Option.some.inj hc
    exact ⟨by decide, hr.letter⟩
  label label _ _ c hc := by
    obtain rfl := List.mem_singleton.mp (List.mem_of_mem_take hc)
    exact hr.separator

section Words

variable {w q : JsString}

-- Whether no label starts in a word. The first two units tell the labels apart from it.
def mute (k : Marker) : JsString → Bool
  | []          => true
  | [a]         => k.labels.all (·.head? ≠ some (lowerCase a))
  | a :: b :: w => k.labels.all (·.take 2 ≠ [lowerCase a, lowerCase b]) && mute k (b :: w)

theorem mute_tail (h : k.mute (a :: w) = true) : k.mute w = true := by
  cases w with
  | nil      => rfl
  | cons b w => exact (Bool.and_eq_true_iff.mp h).2

theorem mute_of_heads (h : ∀ a ∈ w, ∀ label ∈ k.labels, label.head? ≠ some (lowerCase a)) : k.mute w = true := by
  induction w with
  | nil         => rfl
  | cons a w hi =>
    have ⟨ha, hw⟩ := List.forall_mem_cons.mp h
    cases w with
    | nil      => exact List.all_eq_true.mpr fun label hl => decide_eq_true (ha label hl)
    | cons b w =>
      refine Bool.and_eq_true_iff.mpr ⟨List.all_eq_true.mpr fun label hl => decide_eq_true fun he => ?_, hi hw⟩
      refine ha label hl ?_
      have ht : (label.take 2).head? = label.head? := by cases label <;> rfl
      rw [← ht, he]
      rfl

theorem pattern_mute (hk : ∀ label ∈ k.labels, 2 ≤ label.length) (h : k.mute (a :: w) = true) (prev : Option UInt16)
    (t : JsString) : k.pattern prev (a :: w ++ t) = none := by
  refine List.findSome?_eq_none_iff.mpr fun label hl => if_neg fun ⟨he, _⟩ => ?_
  match label, hk label hl with
  | c :: d :: label, _ =>
    cases w with
    | nil =>
      refine of_decide_eq_true (List.all_eq_true.mp h _ hl) ?_
      exact congrArg some (List.cons.inj he).1.symm
    | cons b w =>
      refine of_decide_eq_true (List.all_eq_true.mp (Bool.and_eq_true_iff.mp h).1 _ hl) ?_
      have ⟨h₁, h₂⟩ := List.cons.inj he
      rw [List.take_succ_cons, List.take_succ_cons, List.take_zero, ← h₁, ← (List.cons.inj h₂).1]

theorem replaceAll_mute (hk : ∀ label ∈ k.labels, 2 ≤ label.length) (h : k.mute w = true) (t : JsString) :
    k.replaceAll (w ++ t) = w ++ k.replaceAll t := by
  induction w with
  | nil         => rfl
  | cons a w hi =>
    have hn : k.pattern none (a :: (w ++ t)) = none := pattern_mute hk h none t
    rw [List.cons_append, replaceAll, Pattern.replaceAll, Pattern.replaceFrom_none hn, replaceFrom_prev _ none]
    exact congrArg (a :: ·) (hi (mute_tail h))

-- In a long word without separators, labels are matched in the last units only.
theorem replaceAll_prefix {n : Nat} (hk : ∀ label ∈ k.labels, label.length ≤ n) (hw : ∀ u ∈ w, k.separator u = false)
    (t : JsString) : ∃ r, k.replaceAll (w ++ t) = w.take (w.length - n) ++ r := by
  set a := w.take (w.length - n) with ha
  set b := w.drop (w.length - n) with hb
  have hab : a ++ b = w := List.take_append_drop ..
  have hn u (hu : u <:+ a) (hne : u ≠ []) (prev : Option UInt16) : k.pattern prev (u ++ (b ++ t)) = none := by
    refine List.findSome?_eq_none_iff.mpr fun label hl => if_neg fun ⟨_, hs, _⟩ => ?_
    have hlen : label.length < (u ++ b).length := by
      have h₁ := List.length_pos_iff.mpr hne
      have h₂ := hu.length_le
      have h₃ := hk label hl
      simp only [ha, hb, List.length_append, List.length_take, List.length_drop] at h₂ ⊢
      omega
    rw [← List.append_assoc, List.head?_drop, List.getElem?_append_left hlen, List.getElem?_eq_getElem hlen] at hs
    have hm : (u ++ b)[label.length] ∈ w := by
      rw [← hab]
      exact (List.append_sublist_append_right b |>.mpr hu.sublist).subset (List.getElem_mem hlen)
    exact absurd hs (Bool.eq_false_iff.mp (hw _ hm))
  have ⟨prev, he⟩ := Pattern.replaceFrom_append hn none
  exact ⟨_, by rw [← hab, List.append_assoc, replaceAll, Pattern.replaceAll, he]⟩

-- What follows a word starts with a space, behind which no word is taken in and no label is continued.
structure Ends (k : Marker) (q : JsString) : Prop where
  head  : ∀ c ∈ q.head?, c = Pattern.space
  word  : k.separator Pattern.space = true → (q.dropWhile CharClass.isSpace).takeWhile k.word = []
  label : ∀ label ∈ k.labels, ∀ a b, label = a ++ Pattern.space :: b → ∃ c, b.head? = some c ∧ q.tail.head?.map lowerCase ≠ some c

theorem find_ends {label u : JsString} (hl : label ∈ k.labels) (hu : ∀ c ∈ u, k.separator c = false) (hq : k.Ends q) :
    k.find (u ++ q) label = none := by
  refine if_neg fun ⟨h₁, h₂, h₃⟩ => ?_
  rcases Nat.lt_trichotomy label.length u.length with hlt | heq | hgt
  · rw [List.head?_drop, List.getElem?_append_left hlt, List.getElem?_eq_getElem hlt] at h₂
    exact absurd h₂ (Bool.eq_false_iff.mp (hu _ (List.getElem_mem hlt)))
  · rw [heq, List.drop_left] at h₂ h₃
    cases q with
    | nil      => exact nomatch h₂
    | cons c q =>
      obtain rfl := hq.head c rfl
      have hw := hq.word h₂
      rw [List.dropWhile_cons_of_pos (by decide)] at hw
      exact h₃ hw
  · rw [List.take_append, List.take_of_length_le hgt.le] at h₁
    have ⟨i, hi⟩ := Nat.exists_eq_add_of_lt hgt
    have hlen : label.length - u.length = i + 1 := by omega
    cases q with
    | nil      =>
      have := congrArg List.length h₁
      simp at this
      omega
    | cons c q =>
      obtain rfl := hq.head c rfl
      rw [hlen, List.take_succ_cons, List.map_append, List.map_cons] at h₁
      have ⟨d, hd, hne⟩ := hq.label label hl _ _ h₁.symm
      rw [List.head?_map] at hd
      cases q with
      | nil      => simp at hd
      | cons e q =>
        cases i with
        | zero   => simp at hd
        | succ i => exact hne hd

theorem replaceAll_ends (hw : ∀ c ∈ w, k.separator c = false) (hq : k.Ends q) :
    k.replaceAll (w ++ q) = w ++ k.replaceAll q := by
  have hn u (hu : u <:+ w) (_ : u ≠ []) (prev : Option UInt16) : k.pattern prev (u ++ q) = none :=
    List.findSome?_eq_none_iff.mpr fun _ hl => find_ends hl (fun c hc => hw c (hu.subset hc)) hq
  have ⟨prev, he⟩ := Pattern.replaceFrom_append hn none
  rw [replaceAll, Pattern.replaceAll, he, replaceFrom_prev prev none]
  rfl

end Words

variable {p : JsString}

theorem replaceAll_cases (hr : k.Regular) (hp : Pattern.Margin p) :
    (¬k.Takes p ∧ Pattern.Margin (k.replaceAll p) ∧ ∀ t, k.Fits t → k.replaceAll (p ++ t) = k.replaceAll p ++ k.replaceAll t) ∨
    (k.Takes p ∧ ∀ t, k.Fits t → t ≠ [] →
      k.replaceAll (p ++ t) = k.replaceAll (p ++ [probe]) ++ k.replaceAll (t.dropWhile k.word)) := by
  rcases hp with rfl | ⟨p, rfl⟩
  · refine .inl ⟨?_, .inl rfl, fun t _ => rfl⟩
    rw [Takes, List.nil_append, replaceAll_probe hr]
    exact not_not.mpr rfl
  · have happ t : p ++ [Pattern.space] ++ t = p ++ Pattern.space :: t := List.append_cons .. |>.symm
    rcases Pattern.replaceFrom_space (pattern_cases hr) none 0 (Nat.zero_le p.length) with ⟨q, hq⟩ | ⟨b, q, hb, hq⟩
    · have ht t (ht : k.Fits t) : k.replaceAll (p ++ [Pattern.space] ++ t) = q ++ [Pattern.space] ++ k.replaceAll t := by
        rw [happ, replaceAll, Pattern.replaceAll, hq t ht, replaceFrom_prev _ none, List.append_assoc]
        rfl
      have hn : k.replaceAll (p ++ [Pattern.space]) = q ++ [Pattern.space] := by
        have := ht [] fits_nil
        rwa [List.append_nil, show k.replaceAll [] = [] from rfl, List.append_nil] at this
      refine .inl ⟨not_not.mpr ?_, .inr ⟨q, hn⟩, fun t hf => (ht t hf).trans (by rw [hn])⟩
      rw [ht _ (fits_probe hr), hn, replaceAll_probe hr]
    · have ht t (ht : k.Fits t) (hne : t ≠ []) : k.replaceAll (p ++ [Pattern.space] ++ t) =
          q ++ [Pattern.bracket] ++ k.replaceAll (t.dropWhile k.word) := by
        have ⟨prev', he⟩ := hq t ht hne
        rw [happ, replaceAll, Pattern.replaceAll, he, replaceFrom_prev prev' none, List.append_assoc]
        rfl
      have hprobe : k.replaceAll (p ++ [Pattern.space] ++ [probe]) = q ++ [Pattern.bracket] := by
        rw [ht _ (fits_probe hr) (by simp)]
        simp [hr.letter, replaceAll, Pattern.replaceAll, Pattern.replaceFrom]
      refine .inr ⟨?_, fun t hf hne => (ht t hf hne).trans (by rw [hprobe])⟩
      rw [Takes, hprobe]
      intro he
      have := (List.append_inj' he rfl).2
      exact absurd this (by decide)

end Marker

end Text
