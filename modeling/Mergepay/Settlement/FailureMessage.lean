import Mergepay.Settlement.FailureDetail

-- What the scrub of a message does to the text in front of a word, and behind it
namespace Mergepay.Settlement

open Text

instance (k : Marker) (p : JsString) : Decidable (k.Takes p) :=
  inferInstanceAs (Decidable (_ ≠ _))

-- The marker that takes in the word behind a text, if there is one
inductive Cover
  | bare
  | bearer
  | secret
  | envelope
  deriving DecidableEq

def cover (p : JsString) : Cover :=
  let p₁ := bearerToken.replaceAll p
  let p₂ := labelledSecret.replaceAll p₁
  if bearerToken.Takes p then .bearer
  else if labelledSecret.Takes p₁ then .secret
  else if labelledEnvelope.Takes p₂ then .envelope
  else .bare

-- What the scrub keeps of the text in front of a word
def lead (p : JsString) : JsString :=
  (scrubbed p).dropWhile CharClass.isSpace

-- Whether the text behind a word continues with what may be taken for a bearer token
def crosses (q : JsString) : Bool :=
  (q.dropWhile CharClass.isSpace).head?.any bearerToken.word

-- A text that is separated from the word in front of it
def Trailer (q : JsString) : Prop :=
  ∀ c ∈ q.head?, c = Pattern.space

variable {p q t w l r : JsString}

-- The markers are tried one after the other, on what those before them leave.
theorem cover_spec (p : JsString) : match cover p with
    | .bearer   => bearerToken.Takes p
    | .secret   => ¬bearerToken.Takes p ∧ labelledSecret.Takes (bearerToken.replaceAll p)
    | .envelope => ¬bearerToken.Takes p ∧ ¬labelledSecret.Takes (bearerToken.replaceAll p) ∧
        labelledEnvelope.Takes (labelledSecret.replaceAll (bearerToken.replaceAll p))
    | .bare     => ¬bearerToken.Takes p ∧ ¬labelledSecret.Takes (bearerToken.replaceAll p) ∧
        ¬labelledEnvelope.Takes (labelledSecret.replaceAll (bearerToken.replaceAll p)) := by
  by_cases h₁ : bearerToken.Takes p
  case pos =>
    rw [show cover p = .bearer from if_pos h₁]
    exact h₁
  case neg =>
    by_cases h₂ : labelledSecret.Takes (bearerToken.replaceAll p)
    case pos =>
      rw [show cover p = .secret from (if_neg h₁).trans (if_pos h₂)]
      exact ⟨h₁, h₂⟩
    case neg =>
      by_cases h₃ : labelledEnvelope.Takes (labelledSecret.replaceAll (bearerToken.replaceAll p))
      case pos =>
        rw [show cover p = .envelope from (if_neg h₁).trans <| (if_neg h₂).trans (if_pos h₃)]
        exact ⟨h₁, h₂, h₃⟩
      case neg =>
        rw [show cover p = .bare from (if_neg h₁).trans <| (if_neg h₂).trans (if_neg h₃)]
        exact ⟨h₁, h₂, h₃⟩

section Markers

variable {k : Marker}

-- Where a marker takes the word, the word leaves no trace.
theorem replaceAll_takes (hk : Plain k) (hp : Pattern.Margin p) (h : k.Takes p) (ho : Opens 10 c t) :
    k.replaceAll (p ++ t) = k.replaceAll (p ++ [Marker.probe]) ++ k.replaceAll (t.dropWhile k.word) := by
  rcases Marker.replaceAll_cases hk.regular hp with ⟨hn, _⟩ | ⟨_, he⟩
  · exact absurd h hn
  · have ⟨l, hl, _⟩ := opens_head ho
    exact he t (fits_of_opens hk ho) (hl ▸ List.cons_ne_nil c l)

theorem replaceAll_bare (hk : Plain k) (hp : Pattern.Margin p) (h : ¬k.Takes p) :
    Pattern.Margin (k.replaceAll p) ∧
      ∀ {c t}, Opens 10 c t → k.replaceAll (p ++ t) = k.replaceAll p ++ k.replaceAll t := by
  rcases Marker.replaceAll_cases hk.regular hp with ⟨_, hm, he⟩ | ⟨ht, _⟩
  · exact ⟨hm, fun ho => he _ (fits_of_opens hk ho)⟩
  · exact absurd ht h

end Markers

section Trim

theorem rdropWhile_append_cons (hc : CharClass.isSpace c = false) (p r : JsString) :
    (p ++ c :: r).rdropWhile CharClass.isSpace = p ++ c :: r.rdropWhile CharClass.isSpace := by
  rw [List.rdropWhile, List.rdropWhile, List.reverse_append, List.reverse_cons, List.append_assoc,
    List.singleton_append, Marker.dropWhile_append_cons hc, List.reverse_append, List.reverse_cons, List.reverse_reverse,
    List.append_assoc, List.singleton_append]

theorem trim_cons (hc : CharClass.isSpace c = false) (r : JsString) :
    trim (c :: r) = c :: r.rdropWhile CharClass.isSpace := by
  rw [trim, List.dropWhile_cons_of_neg (Bool.eq_false_iff.mp hc)]
  exact rdropWhile_append_cons hc [] r

theorem trim_append (hc : CharClass.isSpace c = false) (p r : JsString) :
    trim (p ++ c :: r) = p.dropWhile CharClass.isSpace ++ trim (c :: r) := by
  rw [trim_cons hc, trim, Marker.dropWhile_append_cons hc, rdropWhile_append_cons hc]

theorem rdropWhile_word (hw : ∀ u ∈ w, CharClass.isSpace u = false) (t : JsString) :
    (w ++ t).rdropWhile CharClass.isSpace = w ++ t.rdropWhile CharClass.isSpace := by
  induction w with
  | nil         => rfl
  | cons c w hi =>
    have ⟨hc, hw⟩ := List.forall_mem_cons.mp hw
    exact (rdropWhile_append_cons hc [] (w ++ t)).trans (congrArg (c :: ·) (hi hw))

theorem trim_word (hw : ∀ u ∈ w, CharClass.isSpace u = false) (hn : w ≠ []) (t : JsString) :
    trim (w ++ t) = w ++ t.rdropWhile CharClass.isSpace := by
  match w, hn with
  | c :: w, _ =>
    have ⟨hc, hw⟩ := List.forall_mem_cons.mp hw
    exact (trim_cons hc (w ++ t)).trans (congrArg (c :: ·) (rdropWhile_word hw t))

theorem margin_dropWhile (h : Pattern.Margin p) : Pattern.Margin (p.dropWhile CharClass.isSpace) := by
  rcases h with rfl | ⟨q, rfl⟩
  · exact .inl rfl
  · by_cases hq : ∀ u ∈ q, CharClass.isSpace u = true
    case pos =>
      rw [List.dropWhile_append_of_pos hq]
      exact .inl rfl
    case neg => exact .inr ⟨_, (Marker.dropWhile_append_of_neg hq _).1⟩

end Trim

section Bare

theorem scrubbed_opens (ho : Opens 33 c t) : ∃ l, scrubbed t = c :: l ∧ CharClass.isSpace c = false := by
  have o₁ : Opens 22 c _ := opens_replaceAll bearerToken_plain ho
  have o₂ : Opens 11 c _ := opens_replaceAll labelledSecret_plain o₁
  have o₃ : Opens 0 c _ := opens_replaceAll labelledEnvelope_plain o₂
  have ⟨l, hl, hc⟩ := opens_head o₃
  refine ⟨spaces.replaceFrom (some c) 0 l, ?_, hc⟩
  rw [scrubbed, hl]
  exact Pattern.replaceFrom_none (spaces_none hc ..)

theorem scrubbed_append (hp : Pattern.Margin p) (h : cover p = .bare) : Pattern.Margin (scrubbed p) ∧
    ∀ {c t}, Opens 33 c t → scrubbed (p ++ t) = scrubbed p ++ scrubbed t := by
  have hc := cover_spec p
  rw [h] at hc
  obtain ⟨h₁, h₂, h₃⟩ := hc
  have ⟨m₁, e₁⟩ := replaceAll_bare bearerToken_plain hp h₁
  have ⟨m₂, e₂⟩ := replaceAll_bare labelledSecret_plain m₁ h₂
  have ⟨m₃, e₃⟩ := replaceAll_bare labelledEnvelope_plain m₂ h₃
  refine ⟨spaces_margin m₃, fun {c t} ho => ?_⟩
  have o₁ : Opens 22 c _ := opens_replaceAll bearerToken_plain ho
  have o₂ : Opens 11 c _ := opens_replaceAll labelledSecret_plain o₁
  have ⟨l, hl, hc⟩ := opens_head <| show Opens 0 c _ from opens_replaceAll labelledEnvelope_plain o₂
  have hs := spaces_append (t := labelledEnvelope.replaceAll (labelledSecret.replaceAll (bearerToken.replaceAll t)))
    (fun d hd => by rw [hl] at hd; exact Option.some.inj hd ▸ hc)
  rw [scrubbed, e₁ (opens_mono ho (by decide)), e₂ (opens_mono o₁ (by decide)), e₃ (opens_mono o₂ (by decide)), hs]
  rfl

-- What is kept of a text in front of a word is kept of the message, and the word follows.
theorem safeFailureMessage_append (hp : Pattern.Margin p) (h : cover p = .bare) (ho : Opens 33 c t) (n : Nat) :
    safeFailureMessage (p ++ t) n = (lead p ++ trim (scrubbed t)).take n := by
  have ⟨l, hl, hc⟩ := scrubbed_opens ho
  rw [safeFailureMessage, (scrubbed_append hp h).2 ho, hl, trim_append hc]
  rfl

theorem lead_margin (hp : Pattern.Margin p) (h : cover p = .bare) : Pattern.Margin (lead p) :=
  margin_dropWhile (scrubbed_append hp h).1

end Bare

section Quiet

variable {k : Marker}

theorem quiet_of_not_crosses (hq : Trailer q) (h : crosses q = false) : Quiet q := by
  refine ⟨hq, fun c hc => ?_⟩
  rw [crosses, Option.mem_def.mp hc] at h
  exact h

theorem ends_bearerToken (h : Quiet q) : bearerToken.Ends q where
  head    := h.1
  word _  := by
    have hw := h.2
    cases hd : q.dropWhile CharClass.isSpace with
    | nil      => rfl
    | cons c r =>
      rw [hd] at hw
      exact List.takeWhile_cons_of_neg (Bool.eq_false_iff.mp (hw c rfl))
  label label hl a b he := by
    have hs : Pattern.space ∈ label := he ▸ List.mem_append_right a (List.mem_cons_self ..)
    have hn : ∀ label ∈ bearerToken.labels, Pattern.space ∉ label := by decide
    exact absurd hs (hn label hl)

theorem ends_labelledSecret (h : Quiet q) : labelledSecret.Ends q where
  head    := h.1
  word hs := nomatch hs.symm.trans (show labelledSecret.separator Pattern.space = false by decide)
  label label hl a b he := by
    have hn : ∀ label ∈ labelledSecret.labels, label.length < 12 ∧
        ∀ i < 12, label[i]? = some Pattern.space → label[i + 1]? = some 0x6B := by decide
    have ⟨hlen, hk⟩ := hn label hl
    have ha : a.length < 12 := by
      rw [he, List.length_append] at hlen
      omega
    have hb := hk a.length ha (by rw [he, List.getElem?_append_right (Nat.le_refl _), Nat.sub_self]; rfl)
    refine ⟨0x6B, ?_, fun hq => ?_⟩
    · rwa [he, List.getElem?_append_right (Nat.le_add_right _ 1), Nat.add_sub_cancel_left, List.getElem?_cons_succ,
        ← List.head?_eq_getElem?] at hb
    · match q, h, hq with
      | c :: d :: q, h, hq =>
        have hl : isLetter d = true := isLetter_of_lowerCase <| by
          rw [Option.some.inj hq]
          decide
        have hw := h.2
        rw [h.1 c rfl, List.dropWhile_cons_of_pos (by decide),
          List.dropWhile_cons_of_neg (Bool.eq_false_iff.mp (isSpace_of_isLetter hl))] at hw
        exact Bool.eq_false_iff.mp (isLetter_of_word (hw d rfl)) hl

theorem ends_labelledEnvelope (h : Quiet q) : labelledEnvelope.Ends q where
  head    := h.1
  word hs := nomatch hs.symm.trans (show labelledEnvelope.separator Pattern.space = false by decide)
  label label hl a b he := by
    have hs : Pattern.space ∈ label := he ▸ List.mem_append_right a (List.mem_cons_self ..)
    have hn : ∀ label ∈ labelledEnvelope.labels, Pattern.space ∉ label := by decide
    exact absurd hs (hn label hl)

-- A word in front of a quiet text is left as it is.
theorem scrubbed_word (hw : ∀ u ∈ w, isBase64 u = true) (hq : Quiet q) : scrubbed (w ++ q) = w ++ scrubbed q := by
  have q₁ := replaceAll_quiet bearerToken_plain hq
  have q₂ := replaceAll_quiet labelledSecret_plain q₁
  have h₁ := Marker.replaceAll_ends (fun u hu => isSpace_of_isBase64 (hw u hu)) (ends_bearerToken hq)
  have h₂ := Marker.replaceAll_ends (fun u hu => isAssignment_of_isBase64 (hw u hu)) (ends_labelledSecret q₁)
  have h₃ := Marker.replaceAll_ends (fun u hu => isAssignment_of_isBase64 (hw u hu)) (ends_labelledEnvelope q₂)
  rw [scrubbed, h₁, h₂, h₃, spaces_word fun u hu => isSpace_of_isBase64 (hw u hu)]
  rfl

end Quiet

section Mute

-- So is a word in which no label starts.
theorem scrubbed_mute (h₁ : bearerToken.mute w = true) (h₂ : labelledSecret.mute w = true)
    (h₃ : labelledEnvelope.mute w = true) (hw : ∀ u ∈ w, CharClass.isSpace u = false) (t : JsString) :
    scrubbed (w ++ t) = w ++ scrubbed t := by
  rw [scrubbed, replaceAll_mute bearerToken_plain h₁, replaceAll_mute labelledSecret_plain h₂,
    replaceAll_mute labelledEnvelope_plain h₃, spaces_word hw]
  rfl

-- A text without letters in front does not matter for what is taken in.
theorem cover_append (hw : ∀ u ∈ w, isLetter u = false) (t : JsString) : cover (w ++ t) = cover t := by
  have hm {k} (hk : Plain k) t : k.replaceAll (w ++ t) = w ++ k.replaceAll t :=
    replaceAll_mute hk (mute_of_letters hk hw) t
  have ht {k} (hk : Plain k) t : k.Takes (w ++ t) ↔ k.Takes t := by
    rw [Marker.Takes, Marker.Takes, List.append_assoc, hm hk, hm hk, List.append_assoc, ne_eq, List.append_right_inj]
  refine if_congr (ht bearerToken_plain t) rfl (if_congr ?_ rfl (if_congr ?_ rfl rfl))
  · rw [hm bearerToken_plain]
    exact ht labelledSecret_plain _
  · rw [hm bearerToken_plain, hm labelledSecret_plain]
    exact ht labelledEnvelope_plain _

theorem trailer_replaceAll {k : Marker} (hk : Plain k) (h : Trailer q) : Trailer (k.replaceAll q) := by
  cases q with
  | nil      => exact h
  | cons c q =>
    obtain rfl := h c rfl
    have hm : k.mute [Pattern.space] = true :=
      mute_of_letters hk fun u hu => List.mem_singleton.mp hu ▸ by decide
    have he : k.replaceAll (Pattern.space :: q) = _ := replaceAll_mute hk hm q
    rw [he]
    exact fun c hc => (Option.some.inj hc).symm

theorem trailer_spaces (h : Trailer q) : Trailer (spaces.replaceAll q) := by
  cases q with
  | nil      => exact h
  | cons c q =>
    obtain rfl := h c rfl
    rw [Pattern.replaceAll, Pattern.replaceFrom_some (spaces_some (by decide) ..)]
    exact fun c hc => (Option.some.inj hc).symm

theorem trailer_scrubbed (h : Trailer q) : Trailer (scrubbed q) :=
  trailer_spaces <| trailer_replaceAll labelledEnvelope_plain <| trailer_replaceAll labelledSecret_plain <|
    trailer_replaceAll bearerToken_plain h

theorem trailer_prefix (h : Trailer t) (hp : q <+: t) : Trailer q := by
  have ⟨r, hr⟩ := hp
  intro c hc
  cases q with
  | nil      => cases hc
  | cons d q =>
    rw [← hr] at h
    exact h c hc

end Mute

end Mergepay.Settlement
