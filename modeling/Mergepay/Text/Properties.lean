import Mathlib.Data.List.Perm.Basic
import Mathlib.Data.List.Forall2
import Mergepay.Text.Json

namespace Text

-- The properties of objects in JavaScript, in the order in which they are visited
namespace Properties

variable {α : Type}

-- Keys that are visited in the order of their numbers, before all others
def arrayIndex (k : JsString) : Option Nat :=
  if k ≠ [] ∧ k.all (fun u => 0x30 ≤ u ∧ u ≤ 0x39) ∧ (k.head? = some 0x30 → k.length = 1) then
    (some <| k.foldl (fun n u => 10 * n + (u.toNat - 0x30)) 0).filter (· < 2 ^ 32 - 1)
  else
    none

def precedes (k k' : JsString) : Bool :=
  match arrayIndex k, arrayIndex k' with
  | some n, some n' => n < n'
  | none, some _    => false
  | _, none         => true

def set (l : List (JsString × α)) (k : JsString) (v : α) : List (JsString × α) :=
  if k ∈ l.map (·.1) then
    l.map fun p => if p.1 = k then (k, v) else p
  else
    l.takeWhile (precedes ·.1 k) ++ (k, v) :: l.dropWhile (precedes ·.1 k)

-- The assignment to this key sets the prototype of an object.
def assign (l : List (JsString × α)) (k : JsString) (v : α) : List (JsString × α) :=
  if k = .ofString "__proto__" then l else set l k v

-- Keys are compared by their units.
def sort (keys : List JsString) : List JsString :=
  keys.mergeSort fun a b => decide (a ≤ b)

-- Assigns the properties of an object to another one, in the order of their keys.
def arrange (l : List (JsString × α)) : List (JsString × α) :=
  (sort (l.map (·.1))).foldl (fun result key => match l.lookup key with
    | some v => assign result key v
    | none   => result) []

-- No key occurs twice, and none of them sets the prototype.
structure Regular (l : List (JsString × α)) : Prop where
  nodup : (l.map (·.1)).Nodup
  proto : .ofString "__proto__" ∉ l.map (·.1)

theorem Regular.perm {l m : List (JsString × α)} (h : Regular l) (hp : l.Perm m) : Regular m where
  nodup := (hp.map _).nodup_iff.mp h.nodup
  proto := fun hm => h.proto <| (hp.map _).mem_iff.mpr hm

theorem sort_perm (keys : List JsString) : (sort keys).Perm keys :=
  List.mergeSort_perm ..

theorem sort_congr {keys keys' : List JsString} (h : keys.Perm keys') : sort keys = sort keys' := by
  have hs (l : List JsString) : (sort l).Pairwise fun a b => decide (a ≤ b) = true := by
    refine List.pairwise_mergeSort (fun a b c => ?trans) (fun a b => ?total) l
    case trans =>
      simp only [decide_eq_true_eq]
      exact List.le_trans
    case total =>
      simp only [Bool.or_eq_true, decide_eq_true_eq]
      exact List.le_total a b
  refine List.Perm.eq_of_pairwise (fun a b _ _ h₁ h₂ => ?_) (hs _) (hs _) ((sort_perm _).trans (h.trans (sort_perm _).symm))
  exact List.le_antisymm (of_decide_eq_true h₁) (of_decide_eq_true h₂)

theorem set_perm {l : List (JsString × α)} (h : k ∉ l.map (·.1)) (v : α) : (set l k v).Perm ((k, v) :: l) := by
  rw [set, if_neg h]
  refine List.perm_middle.trans ?_
  rw [List.takeWhile_append_dropWhile]

theorem lookup_of_mem {l : List (JsString × α)} (h : (l.map (·.1)).Nodup) (hm : (k, v) ∈ l) : l.lookup k = some v := by
  induction l with
  | nil       => contradiction
  | cons p l hi =>
    have ⟨hp, hl⟩ := List.nodup_cons.mp h
    rcases List.mem_cons.mp hm with rfl | hm
    · exact List.lookup_cons_self
    · have hne : k ≠ p.1 := by
        rintro rfl
        exact hp (List.mem_map_of_mem (f := (·.1)) hm)
      rw [List.lookup_cons, beq_false_of_ne hne]
      exact hi hl hm

def property (l : List (JsString × α)) (k : JsString) : Option (JsString × α) :=
  (l.lookup k).map (k, ·)

theorem filterMap_property {l : List (JsString × α)} (h : (l.map (·.1)).Nodup) :
    (l.map (·.1)).filterMap (property l) = l := by
  rw [List.filterMap_map]
  refine (List.filterMap_congr fun p hp => ?_).trans List.filterMap_some
  have : l.lookup p.1 = some p.2 := lookup_of_mem h hp
  simp [property, this]

-- Each assignment adds a property of its own, as long as no key is assigned twice.
theorem foldl_assign_perm {l : List (JsString × α)} (h : Regular l) {keys : List JsString} (hk : keys.Nodup)
    (hs : ∀ k ∈ keys, k ∈ l.map (·.1)) {acc : List (JsString × α)} (ha : ∀ k ∈ keys, k ∉ acc.map (·.1)) :
    (keys.foldl (fun result key => match l.lookup key with
      | some v => assign result key v
      | none   => result) acc).Perm (acc ++ keys.filterMap (property l)) := by
  induction keys generalizing acc with
  | nil => simp
  | cons k keys hi =>
    have ⟨hnk, hnd⟩ := List.nodup_cons.mp hk
    have ⟨hsk, hs⟩ := List.forall_mem_cons.mp hs
    have ⟨hak, ha⟩ := List.forall_mem_cons.mp ha
    obtain ⟨v, hm⟩ : ∃ v, (k, v) ∈ l := by
      obtain ⟨p, hp, rfl⟩ := List.mem_map.mp hsk
      exact ⟨p.2, hp⟩
    have hl := lookup_of_mem h.nodup hm
    have hp := set_perm hak v
    have ha' : ∀ k' ∈ keys, k' ∉ (set acc k v).map (·.1) := by
      intro k' hk' hc
      rcases List.mem_cons.mp ((hp.map _).mem_iff.mp hc) with rfl | hc
      · exact hnk hk'
      · exact ha k' hk' hc
    have hv : assign acc k v = set acc k v := by
      refine if_neg ?_
      rintro rfl
      exact h.proto hsk
    simp only [List.foldl_cons, hl, hv]
    have hf : (k :: keys).filterMap (property l) = (k, v) :: keys.filterMap (property l) :=
      List.filterMap_cons_some (by rw [property, hl]; rfl)
    rw [hf]
    exact (hi hnd hs ha').trans <| (hp.append_right _).trans List.perm_middle.symm

theorem arrange_perm {l : List (JsString × α)} (h : Regular l) : (arrange l).Perm l := by
  have hp := sort_perm (l.map (·.1))
  refine (foldl_assign_perm h (hp.nodup_iff.mpr h.nodup) (fun k => hp.mem_iff.mp) (by simp)).trans ?_
  rw [List.nil_append]
  exact (hp.filterMap _).trans (.of_eq (filterMap_property h.nodup))

theorem lookup_perm {l m : List (JsString × α)} (h : (l.map (·.1)).Nodup) (hp : l.Perm m) (k : JsString) :
    l.lookup k = m.lookup k := by
  cases hk : l.lookup k with
  | some v =>
    have ⟨l₁, l₂, he, _⟩ := List.lookup_eq_some_iff.mp hk
    have hm : (k, v) ∈ l := by simp [he]
    exact (lookup_of_mem ((hp.map _).nodup_iff.mp h) (hp.mem_iff.mp hm)).symm
  | none =>
    exact (List.lookup_eq_none_iff.mpr fun p hm => List.lookup_eq_none_iff.mp hk p (hp.mem_iff.mpr hm)).symm

theorem arrange_congr {l m : List (JsString × α)} (h : Regular l) (hp : l.Perm m) : arrange l = arrange m := by
  simp only [arrange, sort_congr (hp.map (·.1)), lookup_perm h.nodup hp]

theorem eq_of_perm {l m : List (JsString × α)} (h : (l.map (·.1)).Nodup) (hp : l.Perm m)
    (hk : l.map (·.1) = m.map (·.1)) : l = m := by
  rw [← filterMap_property h, ← filterMap_property (hk ▸ h : (m.map (·.1)).Nodup), hk]
  exact List.filterMap_congr fun k _ => congrArg (Option.map (k, ·)) (lookup_perm h hp k)

-- The arrangement forgets the order of the properties, and nothing else.
theorem arrange_eq_iff {l m : List (JsString × α)} (hl : Regular l) (hm : Regular m) :
    arrange l = arrange m ↔ l.Perm m := by
  constructor
  case mp =>
    intro h
    exact (arrange_perm hl).symm.trans (h ▸ arrange_perm hm)
  case mpr => exact arrange_congr hl

end Properties

namespace Json

mutual

-- Equality of values up to the order of the properties in all objects
def Same : Json → Json → Prop
  | .array l, .array m   => SameItems l m
  | .object l, .object m => ∃ m', m'.Perm m ∧ SameProperties l m'
  | v, w                 => v = w

def SameItems : List Json → List Json → Prop
  | [], []         => True
  | v :: l, w :: m => Same v w ∧ SameItems l m
  | _, _           => False

def SameProperties : List (JsString × Json) → List (JsString × Json) → Prop
  | [], []                   => True
  | (k, v) :: l, (k', w) :: m => k = k' ∧ Same v w ∧ SameProperties l m
  | _, _                     => False

end

mutual

-- No object in a value has a key twice, or sets its prototype.
def Plain : Json → Prop
  | .array l  => PlainItems l
  | .object l => Properties.Regular l ∧ PlainProperties l
  | _         => True

def PlainItems : List Json → Prop
  | []     => True
  | v :: l => Plain v ∧ PlainItems l

def PlainProperties : List (JsString × Json) → Prop
  | []          => True
  | (_, v) :: l => Plain v ∧ PlainProperties l

end

theorem sameItems_iff {l m : List Json} : SameItems l m ↔ List.Forall₂ Same l m := by
  induction l generalizing m with
  | nil       => cases m <;> simp [SameItems]
  | cons v l hi => cases m <;> simp [SameItems, hi]

theorem sameProperties_iff {l m : List (JsString × Json)} :
    SameProperties l m ↔ List.Forall₂ (fun p q => p.1 = q.1 ∧ Same p.2 q.2) l m := by
  induction l generalizing m with
  | nil       => cases m <;> simp [SameProperties]
  | cons v l hi => cases m <;> simp [SameProperties, hi, and_assoc]

theorem plainItems_iff {l : List Json} : PlainItems l ↔ ∀ v ∈ l, Plain v := by
  induction l with
  | nil         => simp [PlainItems]
  | cons v l hi => simp [PlainItems, hi]

theorem plainProperties_iff {l : List (JsString × Json)} : PlainProperties l ↔ ∀ p ∈ l, Plain p.2 := by
  induction l with
  | nil         => simp [PlainProperties]
  | cons p l hi => simp [PlainProperties, hi]

theorem SameProperties.keys {l m : List (JsString × Json)} (h : SameProperties l m) : l.map (·.1) = m.map (·.1) := by
  have hf := sameProperties_iff.mp h
  clear h
  induction hf with
  | nil          => rfl
  | cons hp _ hi => rw [List.map_cons, List.map_cons, hp.1, hi]

-- With their keys in the same order, objects are compared property by property.
theorem same_object_iff {l m : List (JsString × Json)} (hm : (m.map (·.1)).Nodup) (hk : l.map (·.1) = m.map (·.1)) :
    Same (.object l) (.object m) ↔ SameProperties l m := by
  constructor
  case mp =>
    intro ⟨m', hp, h⟩
    have he : m = m' := Properties.eq_of_perm hm hp.symm (hk.symm.trans h.keys)
    exact he ▸ h
  case mpr => exact fun h => ⟨m, .refl m, h⟩

section

-- Values in which some properties are hidden, wherever they are

variable (hidden : JsString → Bool) (mark : Json)

mutual

def redact : Json → Json
  | .array items  => .array (redactItems items)
  | .object props => .object (redactProperties props)
  | v             => v

def redactItems : List Json → List Json
  | []      => []
  | v :: tl => redact v :: redactItems tl

def redactProperties : List (JsString × Json) → List (JsString × Json)
  | []           => []
  | (k, v) :: tl => (k, if hidden k then mark else redact v) :: redactProperties tl

end

def redactProperty (p : JsString × Json) : JsString × Json :=
  (p.1, if hidden p.1 then mark else redact hidden mark p.2)

mutual

-- Values that differ in nothing but hidden properties
def Alike : Json → Json → Prop
  | .array l,  .array m  => AlikeItems l m
  | .object l, .object m => AlikeProperties l m
  | v,         w         => v = w

def AlikeItems : List Json → List Json → Prop
  | [],     []     => True
  | v :: l, w :: m => Alike v w ∧ AlikeItems l m
  | _,      _      => False

def AlikeProperties : List (JsString × Json) → List (JsString × Json) → Prop
  | [],          []          => True
  | (k, v) :: l, (j, w) :: m => k = j ∧ (hidden k = true ∨ Alike v w) ∧ AlikeProperties l m
  | _,           _           => False

end

inductive Selector
  | item (n : Nat)
  | property (key : JsString)
  deriving DecidableEq

-- The value that is found by following a path
def find? : List Selector → Json → Option Json
  | [],                     v          => some v
  | .item n :: path,        .array l   => l[n]?.bind (find? path)
  | .property key :: path,  .object l  => (l.find? (·.1 = key)).bind fun p => find? path p.2
  | _ :: _,                 _          => none

variable {hidden mark}

theorem redactItems_eq : ∀ l, redactItems hidden mark l = l.map (redact hidden mark)
  | []     => rfl
  | _ :: l => congrArg _ (redactItems_eq l)

theorem redactProperties_eq : ∀ l, redactProperties hidden mark l = l.map (redactProperty hidden mark)
  | []     => rfl
  | _ :: l => congrArg _ (redactProperties_eq l)

theorem alikeItems_iff : ∀ {l m}, AlikeItems hidden l m ↔ List.Forall₂ (Alike hidden) l m
  | [],     []     => by simp [AlikeItems]
  | [],     _ :: _ => by simp [AlikeItems]
  | _ :: _, []     => by simp [AlikeItems]
  | _ :: l, _ :: m => by rw [AlikeItems, List.forall₂_cons, alikeItems_iff]

theorem alikeProperties_iff : ∀ {l m}, AlikeProperties hidden l m ↔
    List.Forall₂ (fun p q => p.1 = q.1 ∧ (hidden p.1 = true ∨ Alike hidden p.2 q.2)) l m
  | [],     []     => by simp [AlikeProperties]
  | [],     _ :: _ => by simp [AlikeProperties]
  | _ :: _, []     => by simp [AlikeProperties]
  | _ :: l, _ :: m => by rw [AlikeProperties, List.forall₂_cons, alikeProperties_iff, and_assoc]

theorem forall₂_congr_of_mem {P Q : α → β → Prop} {l : List α} {m : List β} (h : ∀ a ∈ l, ∀ b, P a b ↔ Q a b) :
    List.Forall₂ P l m ↔ List.Forall₂ Q l m := by
  induction l generalizing m with
  | nil          => simp
  | cons a l hi  =>
    have ⟨ha, h⟩ := List.forall_mem_cons.mp h
    cases m with
    | nil      => simp
    | cons b m => rw [List.forall₂_cons, List.forall₂_cons, ha, hi h]

-- What is left of a value is all but its hidden properties.
theorem redact_eq_iff {v w : Json} : redact hidden mark v = redact hidden mark w ↔ Alike hidden v w := by
  induction v using induct generalizing w with
  | array l hi  =>
    cases w with
    | array m =>
      simp only [redact, Alike, array.injEq, redactItems_eq, alikeItems_iff]
      rw [← List.forall₂_eq_eq_eq, List.forall₂_map_left_iff, List.forall₂_map_right_iff]
      exact forall₂_congr_of_mem fun v hv w => hi v hv
    | _       => simp [redact, Alike]
  | object l hi =>
    cases w with
    | object m =>
      simp only [redact, Alike, object.injEq, redactProperties_eq, alikeProperties_iff]
      rw [← List.forall₂_eq_eq_eq, List.forall₂_map_left_iff, List.forall₂_map_right_iff]
      refine forall₂_congr_of_mem fun p hp q => ?_
      rw [redactProperty, redactProperty, Prod.mk.injEq, ← hi p hp]
      refine and_congr_right fun hk => ?_
      rw [← hk]
      cases hidden p.1 <;> simp
    | _        => simp [redact, Alike]
  | _           => cases w <;> simp [redact, Alike]

theorem redact_redact (v : Json) : redact hidden mark (redact hidden mark v) = redact hidden mark v := by
  induction v using induct with
  | array l hi  =>
    simp only [redact, redactItems_eq, List.map_map]
    exact congrArg array <| List.map_congr_left hi
  | object l hi =>
    simp only [redact, redactProperties_eq, List.map_map]
    refine congrArg object <| List.map_congr_left fun p hp => ?_
    by_cases hk : hidden p.1 = true <;> simp [redactProperty, hk, hi p hp]
  | _           => rfl

theorem redactProperties_redactProperties (l : List (JsString × Json)) :
    redactProperties hidden mark (redactProperties hidden mark l) = redactProperties hidden mark l :=
  object.inj <| redact_redact (.object l)

theorem redactProperties_set (l : List (JsString × Json)) (k : JsString) (v : Json) :
    redactProperties hidden mark (Properties.set l k v) =
    Properties.set (redactProperties hidden mark l) k (if hidden k then mark else redact hidden mark v) := by
  have hk : (l.map (redactProperty hidden mark)).map (·.1) = l.map (·.1) := by
    rw [List.map_map]
    rfl
  simp only [Properties.set, redactProperties_eq, hk]
  split
  case isTrue =>
    rw [List.map_map, List.map_map]
    refine List.map_congr_left fun p _ => ?_
    by_cases hp : p.1 = k <;> simp [redactProperty, hp]
  case isFalse =>
    rw [List.map_append, List.map_cons, List.takeWhile_map, List.dropWhile_map]
    rfl

theorem find?_redactProperties (l : List (JsString × Json)) (k : JsString) :
    (redactProperties hidden mark l).find? (·.1 = k) = (l.find? (·.1 = k)).map (redactProperty hidden mark) := by
  rw [redactProperties_eq, List.find?_map]
  rfl

-- A path that does not run through hidden properties leads to what is left of a value.
theorem find?_redact {path : List Selector} {v : Json} (h : ∀ k, .property k ∈ path → hidden k = false) :
    find? path (redact hidden mark v) = (find? path v).map (redact hidden mark) := by
  induction path generalizing v with
  | nil             => rfl
  | cons s path hi =>
    have hi {v} := hi (v := v) fun k hk => h k (List.mem_cons_of_mem s hk)
    cases s with
    | item n     =>
      cases v with
      | array l =>
        rw [redact, find?, find?, redactItems_eq, List.getElem?_map, Option.bind_map, Option.map_bind]
        exact congrArg _ <| funext fun v => hi
      | _       => rfl
    | property k =>
      cases v with
      | object l =>
        rw [redact, find?, find?, find?_redactProperties, Option.bind_map, Option.map_bind]
        refine Option.bind_congr fun p hp => ?_
        have hk : p.1 = k := by simpa using List.find?_some hp
        simp [redactProperty, hk, h k List.mem_cons_self, hi]
      | _        => rfl

-- A hidden property shows nothing but the mark, if that has no parts.
theorem find?_redact_hidden {p q : List Selector} {k : JsString} {v w : Json} (hk : hidden k = true)
    (hm : ∀ path, path ≠ [] → find? path mark = none)
    (h : find? (p ++ .property k :: q) (redact hidden mark v) = some w) : q = [] ∧ w = mark := by
  induction p generalizing v with
  | nil         =>
    cases v with
    | object l =>
      rw [List.nil_append, redact, find?, find?_redactProperties, Option.bind_map] at h
      have ⟨p, hp, h⟩ := Option.bind_eq_some_iff.mp h
      have hpk : p.1 = k := by simpa using List.find?_some hp
      simp only [Function.comp_apply, redactProperty, hpk, hk, if_true] at h
      cases q with
      | nil      => exact ⟨rfl, (Option.some.inj h).symm⟩
      | cons s q => simp [hm (s :: q) (by simp)] at h
    | _        => simp [redact, find?] at h
  | cons s p hi =>
    cases s with
    | item n     =>
      cases v with
      | array l =>
        rw [List.cons_append, redact, find?, redactItems_eq, List.getElem?_map, Option.bind_map] at h
        have ⟨v, _, h⟩ := Option.bind_eq_some_iff.mp h
        exact hi h
      | _       => simp [redact, find?] at h
    | property j =>
      cases v with
      | object l =>
        rw [List.cons_append, redact, find?, find?_redactProperties, Option.bind_map] at h
        have ⟨r, _, h⟩ := Option.bind_eq_some_iff.mp h
        by_cases hr : hidden r.1 = true
        case neg => exact hi (v := r.2) (by simpa [redactProperty, hr] using h)
        case pos =>
          simp [redactProperty, hr, hm] at h
      | _        => simp [redact, find?] at h

end

end Json

end Text
