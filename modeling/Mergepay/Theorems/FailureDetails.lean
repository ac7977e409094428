import Mergepay.Settlement.FailureMessage

-- Which failure details do not depend on the secret that the message contains
namespace Mergepay.Settlement

open Text

def SeedsHidden (p q : JsString) : Prop :=
  ∀ s₁ s₂, isSecretSeed s₁ = true → isSecretSeed s₂ = true → toSafeDetail (p ++ s₁ ++ q) = toSafeDetail (p ++ s₂ ++ q)

-- Text in base64 that is padded to groups of four
structure IsEnvelope (e : JsString) : Prop where
  length : 120 ≤ e.length
  groups : 4 ∣ e.length
  letter : e.head?.any isLetter = true
  body   : ∃ l n, e = l ++ List.replicate n 0x3D ∧ n ≤ 2 ∧ ∀ u ∈ l, isBase64 u = true

def EnvelopesHidden (p q : JsString) : Prop :=
  ∀ e₁ e₂, IsEnvelope e₁ → IsEnvelope e₂ → e₁.length = e₂.length →
    toSafeDetail (p ++ e₁ ++ q) = toSafeDetail (p ++ e₂ ++ q)

-- The condition under which a seed is hidden. Without a label, the cut falls behind the seed, or in front of its second
-- unit.
def SeedsSafe (p q : JsString) : Prop :=
  match cover p with
  | .bearer             => True
  | .secret | .envelope => crosses q = false
  | .bare               => 299 ≤ (lead p).length ∨ (crosses q = false ∧ (lead p).length + 56 ≤ 300)

-- The condition under which an envelope is hidden. Without a label, the cut falls in front of it.
def EnvelopesSafe (p q : JsString) : Prop :=
  match cover p with
  | .bearer   => False
  | .secret   => crosses q = false
  | .envelope => ∀ u ∈ q, CharClass.isSpace u = true
  | .bare     => 300 ≤ (lead p).length

variable {p q t w z : JsString}

section Capped

def capped (l : JsString) : JsString :=
  let trimmed := (trim l).take MAX_FAILURE_DETAIL_LENGTH
  if trimmed.length > 0 then trimmed else .ofString "Settlement failed"

theorem capped_getElem (ha : a.length < 300) (hc : CharClass.isSpace c = false) (r : JsString) :
    (capped (a ++ c :: r))[(a.dropWhile CharClass.isSpace).length]? = some c := by
  have hlt : (a.dropWhile CharClass.isSpace).length < 300 := (List.dropWhile_suffix _).length_le.trans_lt ha
  set b := a.dropWhile CharClass.isSpace with hb
  have ht : (trim (a ++ c :: r)).take MAX_FAILURE_DETAIL_LENGTH =
      b ++ c :: (r.rdropWhile CharClass.isSpace).take (300 - b.length - 1) := by
    have ⟨n, hn⟩ := Nat.exists_eq_add_of_lt hlt
    have hn' : 300 - b.length = n + 1 := by omega
    rw [show MAX_FAILURE_DETAIL_LENGTH = 300 from rfl, trim_append hc, trim_cons hc, ← hb, List.take_append,
      List.take_of_length_le hlt.le, hn', List.take_succ_cons]
    rfl
  have hpos : 0 < ((trim (a ++ c :: r)).take MAX_FAILURE_DETAIL_LENGTH).length := by
    rw [ht, List.length_append, List.length_cons]
    omega
  rw [capped, if_pos hpos, ht, List.getElem?_append_right (Nat.le_refl _), Nat.sub_self]
  rfl

theorem capped_ne (ha : a.length < 300) (hc : CharClass.isSpace c = false) (hd : CharClass.isSpace d = false)
    (h : c ≠ d) (r r' : JsString) : capped (a ++ c :: r) ≠ capped (a ++ d :: r') := by
  intro he
  have hr := capped_getElem ha hc r
  rw [he, capped_getElem ha hd r'] at hr
  exact h (Option.some.inj hr).symm

theorem bareSecretSeed_length (h : bareSecretSeed prev l = some (r, n)) : r.length ≤ n ∧ n ≤ l.length := by
  rw [bareSecretSeed] at h
  split at h
  case isTrue hc =>
    obtain ⟨hr, hn⟩ := Prod.mk.inj (Option.some.inj h)
    have hs := hc.2.1
    simp only [isSecretSeed, Bool.and_eq_true, decide_eq_true_eq, List.length_take] at hs
    rw [← hr, ← hn]
    exact ⟨by decide, by omega⟩
  case isFalse => cases h

theorem bareXdrBlob_length (h : bareXdrBlob prev l = some (r, n)) : r.length ≤ n ∧ n ≤ l.length := by
  simp only [bareXdrBlob] at h
  split at h
  case isTrue hc =>
    obtain ⟨hr, hn⟩ := Prod.mk.inj (Option.some.inj h)
    have h₁ := (List.takeWhile_prefix (l := l) isBase64).length_le
    have h₂ : (((l.drop (l.takeWhile isBase64).length).takeWhile (· = 0x3D)).take 2).length ≤ _ :=
      (List.take_sublist ..).length_le.trans (List.takeWhile_prefix _).length_le
    have h₃ : redacted.length = 10 := by decide
    rw [List.length_drop] at h₂
    rw [← hr, ← hn]
    exact ⟨by omega, by omega⟩
  case isFalse => cases h

theorem redact_length (l : JsString) : (redactFailureDetail l).length ≤ l.length :=
  (Pattern.replaceFrom_length (fun _ _ _ _ => bareXdrBlob_length) none 0 _).trans <|
    Pattern.replaceFrom_length (fun _ _ _ _ => bareSecretSeed_length) none 0 l

end Capped

section Redacted

theorem bareSecretSeed_eq_none (h : isSecretSeed (w.take 56) = false) (prev : Option UInt16) :
    bareSecretSeed prev w = none :=
  if_neg fun hm => Bool.eq_false_iff.mp h hm.2.1

theorem bareSecretSeed_space (z : JsString) (prev : Option UInt16) :
    bareSecretSeed prev (Pattern.space :: z) = none :=
  bareSecretSeed_eq_none (not_isSecretSeed (List.mem_cons_self ..)) prev

theorem bareSecretSeed_trailer (h : Trailer z) (prev : Option UInt16) :
    bareSecretSeed.replaceFrom prev 0 z = bareSecretSeed.replaceAll z := by
  cases z with
  | nil      => rfl
  | cons c z =>
    obtain rfl := h c rfl
    rw [Pattern.replaceAll, Pattern.replaceFrom_none (bareSecretSeed_space ..),
      Pattern.replaceFrom_none (bareSecretSeed_space ..)]

theorem isSecretSeed_eq_cons (hs : isSecretSeed w = true) :
    ∃ s, w = 0x53 :: s ∧ s.length = 55 ∧ ∀ u ∈ w, isBase32 u = true := by
  simp only [isSecretSeed, Bool.and_eq_true, decide_eq_true_eq, List.all_eq_true] at hs
  obtain ⟨⟨hl, hc⟩, hs⟩ := hs
  cases w with
  | nil      => cases hc
  | cons c s => exact ⟨s, by rw [Option.some.inj hc], Nat.succ_inj.mp hl, hs⟩

theorem replaceFrom_seed (hs : isSecretSeed w = true) (hprev : ¬prev.any isWord = true)
    (hz : ¬z.head?.any isWord = true) :
    ∃ prev', bareSecretSeed.replaceFrom prev 0 (w ++ z) = redacted ++ bareSecretSeed.replaceFrom prev' 0 z := by
  obtain ⟨s, he, hl, _⟩ := isSecretSeed_eq_cons hs
  have hlen : w.length = 56 := by rw [he, List.length_cons, hl]
  have hm : bareSecretSeed prev (w ++ z) = some (redacted, 56) := by
    rw [bareSecretSeed, List.take_left' hlen, List.drop_left' hlen, if_pos ⟨hprev, hs, hz⟩]
  obtain ⟨prev', hr⟩ := @Pattern.replaceFrom_skip bareSecretSeed (some 0x53) s z
  refine ⟨prev', ?_⟩
  rw [he, List.cons_append] at hm ⊢
  rw [Pattern.replaceFrom_some hm, ← hr, hl]

theorem trailer_head (h : Trailer z) : ¬z.head?.any isWord = true := by
  cases z with
  | nil      => nofun
  | cons c z =>
    obtain rfl := h c rfl
    exact (by decide : ¬isWord Pattern.space = true)

theorem redact_seed (hs : isSecretSeed w = true) (hz : Trailer z) :
    redactFailureDetail (w ++ z) = bareXdrBlob.replaceAll (redacted ++ bareSecretSeed.replaceAll z) := by
  have ⟨prev, he⟩ := @replaceFrom_seed w z none hs Bool.false_ne_true (trailer_head hz)
  rw [redactFailureDetail, show bareSecretSeed.replaceAll (w ++ z) = _ from he, bareSecretSeed_trailer hz]

end Redacted

section Taken

-- A word that a marker takes in leaves no trace.
theorem replaceAll_word {k : Marker} (hk : Plain k) (hp : Pattern.Margin p) (h : k.Takes p) (ho : Opens 10 c (w ++ q))
    (hw : ∀ u ∈ w, k.word u = true) (hq : Trailer q) :
    k.replaceAll (p ++ (w ++ q)) = k.replaceAll (p ++ [Marker.probe]) ++ k.replaceAll q := by
  have hd : q.dropWhile k.word = q := by
    cases q with
    | nil      => rfl
    | cons c q =>
      obtain rfl := hq c rfl
      exact List.dropWhile_cons_of_neg fun hs => Bool.eq_false_iff.mp (hk.regular.word _ hs) (by decide)
  rw [replaceAll_takes hk hp h ho, List.dropWhile_append_of_pos hw, hd]

theorem isLetter_or_isDigit (h : isBase32 u = true) : bearerToken.word u = true := by
  have hb := isBase64_of_isBase32 h
  simp only [isBase64, Bool.or_eq_true, decide_eq_true_eq] at hb
  simp only [bearerToken, Bool.or_eq_true, decide_eq_true_eq]
  rcases hb with (hb | rfl) | rfl
  · exact .inl (.inl (.inl hb))
  · cases h
  · cases h

theorem isSpace_of_isEnvelope (h : IsEnvelope w) (u : UInt16) (hu : u ∈ w) : CharClass.isSpace u = false := by
  have ⟨l, n, he, _, hl⟩ := h.body
  rw [he] at hu
  rcases List.mem_append.mp hu with hu | hu
  · exact isSpace_of_isBase64 (hl u hu)
  · exact (List.mem_replicate.mp hu).2 ▸ by decide

theorem opens_seed (h : isSecretSeed w = true) (q : JsString) : Opens 33 0x53 (w ++ q) := by
  have ⟨s, he, hl, hs⟩ := isSecretSeed_eq_cons h
  refine ⟨by decide, s, q, by rw [he], by omega, fun u hu => isBase64_of_isBase32 (hs u ?_)⟩
  exact he ▸ List.mem_cons_of_mem _ hu

theorem opens_envelope (h : IsEnvelope w) (q : JsString) : ∃ c, Opens 33 c (w ++ q) := by
  have ⟨l, n, he, hn, hl⟩ := h.body
  have hlen := h.length
  rw [he, List.length_append, List.length_replicate] at hlen
  match l with
  | c :: l =>
    have hc := h.letter
    rw [he] at hc
    refine ⟨c, hc, l, List.replicate n 0x3D ++ q, ?_, ?_, (List.forall_mem_cons.mp hl).2⟩
    · rw [he, List.append_assoc]
    · simp only [List.length_cons] at hlen
      omega
  | [] =>
    simp only [List.length_nil] at hlen
    omega

-- Behind the label of a secret, any word in front of a quiet text is taken in.
theorem scrubbed_secret (hp : Pattern.Margin p) (h : cover p = .secret) (ho : Opens 33 c (w ++ q))
    (hw : ∀ u ∈ w, CharClass.isSpace u = false) (hq : Quiet q) :
    labelledSecret.replaceAll (bearerToken.replaceAll (p ++ (w ++ q))) =
      labelledSecret.replaceAll (bearerToken.replaceAll p ++ [Marker.probe]) ++
        labelledSecret.replaceAll (bearerToken.replaceAll q) := by
  have hc := cover_spec p
  rw [h] at hc
  obtain ⟨h₁, h₂⟩ := hc
  obtain ⟨hm, he⟩ := replaceAll_bare bearerToken_plain hp h₁
  have ho' : Opens 22 c _ := opens_replaceAll bearerToken_plain ho
  have hb : bearerToken.replaceAll (w ++ q) = w ++ bearerToken.replaceAll q :=
    Marker.replaceAll_ends hw (ends_bearerToken hq)
  rw [he (opens_mono ho (by decide)), hb]
  refine replaceAll_word labelledSecret_plain hm h₂ (hb ▸ opens_mono ho' (by decide)) (fun u hu => ?_)
    (replaceAll_quiet bearerToken_plain hq).1
  simp [labelledSecret, hw u hu]

-- So is one behind the label of an envelope, as far as it is left.
theorem labelled_envelope (hp : Pattern.Margin p) (h : cover p = .envelope) (ho : Opens 33 c t)
    (ht : labelledSecret.replaceAll (bearerToken.replaceAll t) = w ++ q) (hw : ∀ u ∈ w, CharClass.isSpace u = false)
    (hq : Trailer q) :
    labelledEnvelope.replaceAll (labelledSecret.replaceAll (bearerToken.replaceAll (p ++ t))) =
      labelledEnvelope.replaceAll (labelledSecret.replaceAll (bearerToken.replaceAll p) ++ [Marker.probe]) ++
        labelledEnvelope.replaceAll q := by
  have hc := cover_spec p
  rw [h] at hc
  obtain ⟨h₁, h₂, h₃⟩ := hc
  obtain ⟨m₁, e₁⟩ := replaceAll_bare bearerToken_plain hp h₁
  obtain ⟨m₂, e₂⟩ := replaceAll_bare labelledSecret_plain m₁ h₂
  have o₁ : Opens 22 c _ := opens_replaceAll bearerToken_plain ho
  have o₂ : Opens 11 c _ := opens_replaceAll labelledSecret_plain o₁
  rw [e₁ (opens_mono ho (by decide)), e₂ (opens_mono o₁ (by decide)), ht]
  refine replaceAll_word labelledEnvelope_plain m₂ h₃ (ht ▸ opens_mono o₂ (by decide)) (fun u hu => ?_) hq
  simp [labelledEnvelope, hw u hu]

end Taken

section Seeds

theorem toSafeDetail_congr (h : scrubbed t = scrubbed z) : toSafeDetail t = toSafeDetail z := by
  rw [toSafeDetail, toSafeDetail, safeFailureMessage, safeFailureMessage, h]

theorem isBase64_of_isSecretSeed (h : isSecretSeed w = true) (u : UInt16) (hu : u ∈ w) : isBase64 u = true := by
  have ⟨_, _, _, hs⟩ := isSecretSeed_eq_cons h
  exact isBase64_of_isBase32 (hs u hu)

theorem seedsHidden_bearer (hp : Pattern.Margin p) (hq : Trailer q) (h : cover p = .bearer) : SeedsHidden p q := by
  have ht := cover_spec p
  rw [h] at ht
  have hb {s} (hs : isSecretSeed s = true) : bearerToken.replaceAll (p ++ (s ++ q)) =
      bearerToken.replaceAll (p ++ [Marker.probe]) ++ bearerToken.replaceAll q := by
    have ⟨_, _, _, hs'⟩ := isSecretSeed_eq_cons hs
    exact replaceAll_word bearerToken_plain hp ht (opens_mono (opens_seed hs q) (by decide))
      (fun u hu => isLetter_or_isDigit (hs' u hu)) hq
  intro s₁ s₂ h₁ h₂
  refine toSafeDetail_congr ?_
  rw [scrubbed, scrubbed, List.append_assoc, List.append_assoc, hb h₁, hb h₂]

theorem seedsHidden_secret (hp : Pattern.Margin p) (hq : Quiet q) (h : cover p = .secret) : SeedsHidden p q := by
  intro s₁ s₂ h₁ h₂
  have hs {s} (hs : isSecretSeed s = true) u (hu : u ∈ s) : CharClass.isSpace u = false :=
    isSpace_of_isBase64 (isBase64_of_isSecretSeed hs u hu)
  refine toSafeDetail_congr ?_
  rw [scrubbed, scrubbed, List.append_assoc, List.append_assoc,
    scrubbed_secret hp h (opens_seed h₁ q) (hs h₁) hq, scrubbed_secret hp h (opens_seed h₂ q) (hs h₂) hq]

theorem seedsHidden_envelope (hp : Pattern.Margin p) (hq : Quiet q) (h : cover p = .envelope) : SeedsHidden p q := by
  have q₁ := replaceAll_quiet bearerToken_plain hq
  have q₂ := replaceAll_quiet labelledSecret_plain q₁
  have hb {s} (hs : isSecretSeed s = true) :
      labelledEnvelope.replaceAll (labelledSecret.replaceAll (bearerToken.replaceAll (p ++ (s ++ q)))) =
        labelledEnvelope.replaceAll (labelledSecret.replaceAll (bearerToken.replaceAll p) ++ [Marker.probe]) ++
          labelledEnvelope.replaceAll (labelledSecret.replaceAll (bearerToken.replaceAll q)) := by
    have hs' := isBase64_of_isSecretSeed hs
    refine labelled_envelope hp h (opens_seed hs q) ?_ (fun u hu => isSpace_of_isBase64 (hs' u hu)) q₂.1
    rw [Marker.replaceAll_ends (fun u hu => isSpace_of_isBase64 (hs' u hu)) (ends_bearerToken hq),
      Marker.replaceAll_ends (fun u hu => isAssignment_of_isBase64 (hs' u hu)) (ends_labelledSecret q₁)]
  intro s₁ s₂ h₁ h₂
  refine toSafeDetail_congr ?_
  rw [scrubbed, scrubbed, List.append_assoc, List.append_assoc, hb h₁, hb h₂]

-- The detail of a message in which no label covers a word
theorem toSafeDetail_append (hp : Pattern.Margin p) (h : cover p = .bare) (ho : Opens 33 c t) :
    toSafeDetail (p ++ t) = capped (redactFailureDetail ((lead p ++ trim (scrubbed t)).take 300)) := by
  rw [toSafeDetail, safeFailureMessage_append hp h ho]
  rfl

theorem toSafeDetail_word (hp : Pattern.Margin p) (h : cover p = .bare) (ho : Opens 33 c t)
    (ht : scrubbed t = w ++ z) (hw : ∀ u ∈ w, CharClass.isSpace u = false) (hn : w ≠ []) (hl : (lead p).length ≤ 300) :
    toSafeDetail (p ++ t) = capped (redactFailureDetail (lead p) ++
      redactFailureDetail ((w ++ z.rdropWhile CharClass.isSpace).take (300 - (lead p).length))) := by
  rw [toSafeDetail_append hp h ho, ht, trim_word hw hn, List.take_append, List.take_of_length_le hl,
    (redact_append (lead_margin hp h)).2]

theorem seedsHidden_bare (hp : Pattern.Margin p) (hq : Trailer q) (h : cover p = .bare)
    (hs : 299 ≤ (lead p).length ∨ (crosses q = false ∧ (lead p).length + 56 ≤ 300)) : SeedsHidden p q := by
  intro s₁ s₂ h₁ h₂
  rw [List.append_assoc, List.append_assoc]
  rcases hs with hs | ⟨hc, hs⟩
  · have ht {s} (hs' : isSecretSeed s = true) :
        (lead p ++ trim (scrubbed (s ++ q))).take 300 = (lead p ++ [0x53]).take 300 := by
      have ⟨l, hl, hc⟩ := scrubbed_opens (opens_seed hs' q)
      rw [hl, trim_cons hc, List.append_cons, List.take_append_of_le_length]
      rw [List.length_append, List.length_singleton]
      omega
    rw [toSafeDetail_append hp h (opens_seed h₁ q), toSafeDetail_append hp h (opens_seed h₂ q), ht h₁, ht h₂]
  · have hq := quiet_of_not_crosses hq hc
    have hz : Trailer (((scrubbed q).rdropWhile CharClass.isSpace).take (300 - (lead p).length - 56)) :=
      trailer_prefix (trailer_scrubbed hq.1) ((List.take_prefix ..).trans (List.rdropWhile_prefix ..))
    have ht {s} (hs' : isSecretSeed s = true) : toSafeDetail (p ++ (s ++ q)) = capped (redactFailureDetail (lead p) ++
        bareXdrBlob.replaceAll (redacted ++ bareSecretSeed.replaceAll
          (((scrubbed q).rdropWhile CharClass.isSpace).take (300 - (lead p).length - 56)))) := by
      have hb := isBase64_of_isSecretSeed hs'
      have ⟨r, he, hr, _⟩ := isSecretSeed_eq_cons hs'
      have hlen : s.length = 56 := by rw [he, List.length_cons, hr]
      rw [toSafeDetail_word hp h (opens_seed hs' q) (scrubbed_word hb hq) (fun u hu => isSpace_of_isBase64 (hb u hu))
        (by rw [he]; exact List.cons_ne_nil _ _) (by omega), List.take_append, List.take_of_length_le (by omega), hlen,
        redact_seed hs' hz]
    rw [ht h₁, ht h₂]

theorem seedsHidden_of_safe (hp : Pattern.Margin p) (hq : Trailer q) (h : SeedsSafe p q) : SeedsHidden p q := by
  rw [SeedsSafe] at h
  match hc : cover p with
  | .bearer   => exact seedsHidden_bearer hp hq hc
  | .secret   =>
    rw [hc] at h
    exact seedsHidden_secret hp (quiet_of_not_crosses hq h) hc
  | .envelope =>
    rw [hc] at h
    exact seedsHidden_envelope hp (quiet_of_not_crosses hq h) hc
  | .bare     =>
    rw [hc] at h
    exact seedsHidden_bare hp hq hc h

end Seeds

section Envelopes

theorem envelopesHidden_secret (hp : Pattern.Margin p) (hq : Quiet q) (h : cover p = .secret) : EnvelopesHidden p q := by
  intro e₁ e₂ h₁ h₂ _
  have ⟨c₁, o₁⟩ := opens_envelope h₁ q
  have ⟨c₂, o₂⟩ := opens_envelope h₂ q
  refine toSafeDetail_congr ?_
  rw [scrubbed, scrubbed, List.append_assoc, List.append_assoc, scrubbed_secret hp h o₁ (isSpace_of_isEnvelope h₁) hq,
    scrubbed_secret hp h o₂ (isSpace_of_isEnvelope h₂) hq]

-- In front of blanks, what the marker of secrets takes in ends with the word.
theorem find_blank {u label : JsString} (hu : ∀ c ∈ u, CharClass.isSpace c = false)
    (hq : ∀ c ∈ q, CharClass.isSpace c = true) (h : labelledSecret.find (u ++ q) label = some (r, n)) :
    n ≤ u.length ∧ ∀ c ∈ r, CharClass.isSpace c = false := by
  rw [Marker.find] at h
  split at h
  case isFalse => cases h
  case isTrue hc =>
    obtain ⟨_, hs, hw⟩ := hc
    have hlt : label.length < u.length := by
      refine Nat.lt_of_not_le fun hle => ?_
      rw [List.drop_append, List.drop_eq_nil_of_le hle, List.nil_append] at hs
      obtain ⟨c, hc, hs⟩ := (Option.any_eq_true ..).mp hs
      have hsp := hq c (List.mem_of_mem_drop (List.mem_of_mem_head? hc))
      have hn : isAssignment c = true → CharClass.isSpace c = false := fun h => by
        rcases Bool.or_eq_true_iff.mp h with h | h <;> exact of_decide_eq_true h ▸ by decide
      exact absurd hsp (Bool.eq_false_iff.mp (hn hs))
    have hrest : ((u ++ q).drop label.length).tail = u.drop (label.length + 1) ++ q := by
      rw [List.tail_drop, List.drop_append_of_le_length hlt]
    rw [hrest] at h hw
    cases hd : u.drop (label.length + 1) with
    | nil =>
      rw [hd, List.nil_append, List.dropWhile_eq_nil_iff.mpr hq] at hw
      exact absurd rfl hw
    | cons c v =>
      have hcv d (hd' : d ∈ c :: v) : CharClass.isSpace d = false := hu d (List.mem_of_mem_drop (hd ▸ hd'))
      have hc := Bool.eq_false_iff.mp (hcv c (List.mem_cons_self ..))
      have ht : (c :: v ++ q).takeWhile labelledSecret.word = c :: v := by
        have hcw d (hd' : d ∈ c :: v) : labelledSecret.word d = true := by simp [labelledSecret, hcv d hd']
        cases q with
        | nil      => rw [List.append_nil, List.takeWhile_eq_self_iff.mpr hcw]
        | cons e q =>
          have he : labelledSecret.word e = false := by simp [labelledSecret, hq e (List.mem_cons_self ..)]
          rw [Marker.takeWhile_append_cons he, List.takeWhile_eq_self_iff.mpr hcw]
      have hlen := congrArg List.length hd
      rw [List.length_drop, List.length_cons] at hlen
      rw [hd, List.cons_append, List.takeWhile_cons_of_neg hc, List.dropWhile_cons_of_neg hc, ← List.cons_append, ht] at h
      obtain ⟨hr, hn⟩ := Prod.mk.inj (Option.some.inj h)
      constructor
      case left =>
        rw [← hn, List.length_nil, List.length_cons]
        omega
      case right =>
        rw [← hr, List.length_nil, List.take_append_of_le_length (Nat.succ_le_of_lt hlt)]
        intro d hd'
        rcases List.mem_append.mp hd' with hd' | hd'
        · exact hu d (List.mem_of_mem_take hd')
        · exact List.forall_iff_forall_mem.mp (show redacted.Forall (CharClass.isSpace · = false) by decide) d hd'

theorem replaceFrom_blank (hw : ∀ u ∈ w, CharClass.isSpace u = false) (hq : ∀ u ∈ q, CharClass.isSpace u = true)
    (prev : Option UInt16) (n : Nat) (hn : n ≤ w.length) :
    ∃ f, (∀ u ∈ f, CharClass.isSpace u = false) ∧ labelledSecret.pattern.replaceFrom prev n (w ++ q) = f ++ q := by
  induction w generalizing prev n with
  | nil =>
    obtain rfl : n = 0 := Nat.le_zero.mp hn
    have hm : labelledSecret.mute q = true := mute_of_letters labelledSecret_plain fun u hu =>
      Bool.eq_false_iff.mpr fun hl => Bool.eq_false_iff.mp (isSpace_of_isLetter hl) (hq u hu)
    have he := replaceAll_mute labelledSecret_plain hm []
    rw [List.append_nil, show labelledSecret.replaceAll [] = [] from rfl, List.append_nil] at he
    exact ⟨[], nofun, (Marker.replaceFrom_prev prev none 0 q).trans he⟩
  | cons c w hi =>
    have ⟨hc, hw'⟩ := List.forall_mem_cons.mp hw
    cases n with
    | succ n => exact hi hw' (some c) n (Nat.le_of_succ_le_succ hn)
    | zero   =>
      match hm : labelledSecret.pattern prev (c :: (w ++ q)) with
      | some (r, n) =>
        have ⟨label, _, hf⟩ := List.exists_of_findSome?_eq_some hm
        have ⟨hle, hr⟩ := find_blank hw hq hf
        have ⟨f, hf, he⟩ := hi hw' (some c) (n - 1) (Nat.sub_le_of_le_add hle)
        refine ⟨r ++ f, fun u hu => (List.mem_append.mp hu).elim (hr u) (hf u), ?_⟩
        rw [List.cons_append, Pattern.replaceFrom_some hm, he, List.append_assoc]
      | none =>
        have ⟨f, hf, he⟩ := hi hw' (some c) 0 (Nat.zero_le _)
        refine ⟨c :: f, List.forall_mem_cons.mpr ⟨hc, hf⟩, ?_⟩
        rw [List.cons_append, Pattern.replaceFrom_none hm, he]
        rfl

theorem envelopesHidden_envelope (hp : Pattern.Margin p) (hq : Trailer q) (h : cover p = .envelope)
    (hb : ∀ u ∈ q, CharClass.isSpace u = true) : EnvelopesHidden p q := by
  have hd : q.dropWhile CharClass.isSpace = [] := List.dropWhile_eq_nil_iff.mpr hb
  have hquiet : Quiet q := ⟨hq, by rw [hd]; nofun⟩
  have hm {k} (hk : Plain k) : k.replaceAll q = q := by
    have he := replaceAll_mute hk (w := q) (mute_of_letters hk fun u hu =>
      Bool.eq_false_iff.mpr fun hl => Bool.eq_false_iff.mp (isSpace_of_isLetter hl) (hb u hu)) []
    rwa [List.append_nil, show k.replaceAll [] = [] from rfl, List.append_nil] at he
  have ht {e} (he : IsEnvelope e) :
      labelledEnvelope.replaceAll (labelledSecret.replaceAll (bearerToken.replaceAll (p ++ (e ++ q)))) =
        labelledEnvelope.replaceAll (labelledSecret.replaceAll (bearerToken.replaceAll p) ++ [Marker.probe]) ++
          labelledEnvelope.replaceAll q := by
    have ⟨c, ho⟩ := opens_envelope he q
    have hsp := isSpace_of_isEnvelope he
    have ⟨f, hf, hs⟩ := replaceFrom_blank hsp hb none 0 (Nat.zero_le _)
    refine labelled_envelope hp h ho ?_ hf hq
    rw [Marker.replaceAll_ends hsp (ends_bearerToken hquiet), hm bearerToken_plain]
    exact hs
  intro e₁ e₂ h₁ h₂ _
  refine toSafeDetail_congr ?_
  rw [scrubbed, scrubbed, List.append_assoc, List.append_assoc, ht h₁, ht h₂]

theorem envelopesHidden_bare (hp : Pattern.Margin p) (h : cover p = .bare) (hl : 300 ≤ (lead p).length) :
    EnvelopesHidden p q := by
  intro e₁ e₂ h₁ h₂ _
  have ⟨c₁, o₁⟩ := opens_envelope h₁ q
  have ⟨c₂, o₂⟩ := opens_envelope h₂ q
  rw [List.append_assoc, List.append_assoc, toSafeDetail_append hp h o₁, toSafeDetail_append hp h o₂,
    List.take_append_of_le_length hl, List.take_append_of_le_length hl]

theorem envelopesHidden_of_safe (hp : Pattern.Margin p) (hq : Trailer q) (h : EnvelopesSafe p q) :
    EnvelopesHidden p q := by
  rw [EnvelopesSafe] at h
  match hc : cover p with
  | .bearer   =>
    rw [hc] at h
    exact h.elim
  | .secret   =>
    rw [hc] at h
    exact envelopesHidden_secret hp (quiet_of_not_crosses hq h) hc
  | .envelope =>
    rw [hc] at h
    exact envelopesHidden_envelope hp hq hc h
  | .bare     =>
    rw [hc] at h
    exact envelopesHidden_bare hp hc h

end Envelopes

section Leaks

-- A seed that is cut, and a word in which no seed starts, are left as they are.
theorem redact_short (hl : w.length < 120) (hs : ∀ u, u <:+ w → isSecretSeed (u.take 56) = false) :
    redactFailureDetail w = w := by
  have h₁ : bareSecretSeed.replaceAll w = w := by
    have ⟨_, he⟩ := @Pattern.replaceFrom_append bareSecretSeed [] w (fun u hu _ _ => by
      rw [List.append_nil]
      exact bareSecretSeed_eq_none (hs u hu) _) none
    rwa [List.append_nil, show bareSecretSeed.replaceFrom _ 0 [] = [] from rfl, List.append_nil] at he
  have h₂ : bareXdrBlob.replaceAll w = w := by
    have ⟨_, he⟩ := @Pattern.replaceFrom_append bareXdrBlob [] w (fun u hu _ _ => by
      rw [List.append_nil]
      refine if_neg fun h => ?_
      have h₁ := (List.takeWhile_prefix (l := u) isBase64).length_le
      have h₂ := hu.length_le
      omega) none
    rwa [List.append_nil, show bareXdrBlob.replaceFrom _ 0 [] = [] from rfl, List.append_nil] at he
  rw [redactFailureDetail, h₁, h₂]

theorem blob_short (hr : ((c :: l).takeWhile isBase64).length < 120) :
    ∃ r, bareXdrBlob.replaceAll (c :: l) = c :: r := by
  have hn : bareXdrBlob none (c :: l) = none := if_neg fun h => absurd h.2 (Nat.not_le_of_lt hr)
  exact ⟨_, Pattern.replaceFrom_none hn⟩

theorem blob_long (hc : isWord c = true) (hr : 120 ≤ ((c :: l).takeWhile isBase64).length) :
    ∃ r, bareXdrBlob.replaceAll (c :: l) = 0x5B :: r := by
  have hb : (none : Option UInt16).any isWord ≠ (c :: l).head?.any isWord := by
    simp [hc]
  have hr : redacted = 0x5B :: redacted.tail := by decide
  have he := Pattern.replaceFrom_some (m := bareXdrBlob) (if_pos ⟨hb, ‹_›⟩)
  rw [hr] at he
  exact ⟨_, he⟩

-- Seeds that differ in the second unit, when they are cut behind it
def seedC : JsString :=
  0x53 :: List.replicate 55 0x43

def seedD : JsString :=
  0x53 :: List.replicate 55 0x44

theorem leak_cut (hp : Pattern.Margin p) (h : cover p = .bare) (hl : (lead p).length < 299)
    (hc : 300 < (lead p).length + 56) : ¬SeedsHidden p q := by
  intro hh
  have he := hh seedC seedD (by decide) (by decide)
  have ⟨n, hn⟩ := Nat.exists_eq_add_of_le (Nat.le_of_lt_succ hl)
  have hv : 300 - (lead p).length = n + 2 := by omega
  have ht {s : JsString} (hs : isSecretSeed s = true) (h₁ : bearerToken.mute s = true) (h₂ : labelledSecret.mute s = true)
      (h₃ : labelledEnvelope.mute s = true) :
      toSafeDetail (p ++ s ++ q) = capped (redactFailureDetail (lead p) ++ s.take (n + 2)) := by
    have hsp u (hu : u ∈ s) := isSpace_of_isBase64 (isBase64_of_isSecretSeed hs u hu)
    have ⟨r, hr, hlen, _⟩ := isSecretSeed_eq_cons hs
    have hlen : s.length = 56 := by rw [hr, List.length_cons, hlen]
    have hshort : (s.take (n + 2)).length < 56 := by
      rw [List.length_take]
      omega
    have hred : redactFailureDetail (s.take (n + 2)) = s.take (n + 2) := by
      refine redact_short (by omega) fun u hu => Bool.eq_false_iff.mpr fun hs => ?_
      have ⟨_, hr, hl, _⟩ := isSecretSeed_eq_cons hs
      have hle := congrArg List.length hr
      rw [List.length_cons, hl, List.length_take] at hle
      have := hu.length_le
      omega
    rw [List.append_assoc, toSafeDetail_word hp h (opens_seed hs q) (scrubbed_mute h₁ h₂ h₃ hsp q) hsp
      (by rw [hr]; exact List.cons_ne_nil _ _) (by omega), hv, List.take_append_of_le_length (by omega), hred]
  rw [ht (by decide) (by decide) (by decide) (by decide), ht (by decide) (by decide) (by decide) (by decide)] at he
  have hlen := redact_length (lead p)
  have hlen : (redactFailureDetail (lead p) ++ [0x53]).length < 300 := by
    rw [List.length_append, List.length_singleton]
    omega
  refine capped_ne hlen (by decide) (by decide) (by decide : (0x43 : UInt16) ≠ 0x44) ((List.replicate 54 0x43).take n)
    ((List.replicate 54 0x44).take n) ?_
  rw [← List.append_cons, ← List.append_cons]
  exact he

-- A seed that ends like the label of a bearer token, and what the label makes of it
def seedBearer : JsString :=
  0x53 :: List.replicate 49 0x43 ++ JsString.ofString "BEARER"

def crossedSeed : JsString :=
  0x53 :: List.replicate 49 0x43 ++ JsString.ofString "bearer"

theorem replaceAll_bearer (hc : crosses (Pattern.space :: q) = true) :
    ∃ r, bearerToken.replaceAll (seedBearer ++ Pattern.space :: q) = crossedSeed ++ Pattern.space :: r := by
  have hw : (q.dropWhile CharClass.isSpace).takeWhile bearerToken.word ≠ [] := by
    rw [crosses, List.dropWhile_cons_of_pos (by decide)] at hc
    cases hd : q.dropWhile CharClass.isSpace with
    | nil      =>
      rw [hd] at hc
      cases hc
    | cons c r =>
      rw [hd] at hc
      rw [List.takeWhile_cons_of_pos (show bearerToken.word c = true from hc)]
      exact List.cons_ne_nil _ _
  obtain ⟨n, hf⟩ : ∃ n, bearerToken.find (0x42 :: (JsString.ofString "EARER" ++ Pattern.space :: q)) (.ofString "bearer") =
      some (JsString.ofString "bearer " ++ redacted, n) := ⟨_, if_pos ⟨rfl, rfl, hw⟩⟩
  have hm : bearerToken.pattern none (0x42 :: (JsString.ofString "EARER" ++ Pattern.space :: q)) =
      some (JsString.ofString "bearer " ++ redacted, n) := by
    refine Eq.trans (b := [JsString.ofString "bearer"].findSome? (bearerToken.find _)) rfl ?_
    exact (List.findSome?_cons ..).trans (by rw [hf])
  have hr := Pattern.replaceFrom_some hm
  rw [seedBearer, List.append_assoc, replaceAll_mute bearerToken_plain (by decide)]
  exact ⟨_, congrArg (_ ++ ·) hr⟩

theorem crosses_bearer (hq : Trailer q) (hc : crosses q = true) :
    ∃ r, scrubbed (seedBearer ++ q) = crossedSeed ++ r ∧ Trailer r := by
  match q, hq with
  | [], _     => cases hc
  | c :: q, hq =>
    obtain rfl := hq c rfl
    have ⟨r, hr⟩ := replaceAll_bearer hc
    have h₁ : Trailer (Pattern.space :: r) := fun c hc => (Option.some.inj hc).symm
    have h₂ := trailer_replaceAll labelledSecret_plain h₁
    have h₃ := trailer_replaceAll labelledEnvelope_plain h₂
    have hsp : ∀ u ∈ crossedSeed, CharClass.isSpace u = false := List.forall_iff_forall_mem.mp (by decide)
    rw [scrubbed, hr, replaceAll_mute labelledSecret_plain (by decide), replaceAll_mute labelledEnvelope_plain (by decide),
      spaces_word hsp]
    exact ⟨_, rfl, trailer_spaces h₃⟩

theorem takeWhile_trailer (hz : Trailer z) (w : JsString) : ((w ++ z).takeWhile isBase64).length ≤ w.length := by
  cases z with
  | nil =>
    rw [List.append_nil]
    exact (List.takeWhile_prefix _).length_le
  | cons c z =>
    obtain rfl := hz c rfl
    rw [Marker.takeWhile_append_cons not_isBase64_space]
    exact (List.takeWhile_prefix _).length_le

theorem trailer_bareSecretSeed (h : Trailer z) : Trailer (bareSecretSeed.replaceAll z) := by
  cases z with
  | nil      => exact h
  | cons c z =>
    obtain rfl := h c rfl
    rw [Pattern.replaceAll, Pattern.replaceFrom_none (bareSecretSeed_space ..)]
    exact fun c hc => (Option.some.inj hc).symm

-- What the label leaves of the seed is neither a seed nor long enough for an envelope.
theorem redact_crossed (hz : Trailer z) : ∃ r, redactFailureDetail (crossedSeed ++ z) = 0x53 :: r := by
  have hn u (hu : u <:+ crossedSeed) (hne : u ≠ []) (prev : Option UInt16) : bareSecretSeed prev (u ++ z) = none := by
    refine if_neg fun ⟨_, hs, _⟩ => ?_
    have hle : u.length ≤ 56 := hu.length_le
    have hr : 0x72 ∈ u := by
      have hl := List.getLast_mem hne
      rwa [hu.getLast hne] at hl
    have hm : 0x72 ∈ (u ++ z).take 56 := by
      rw [List.take_append, List.take_of_length_le hle]
      exact List.mem_append_left _ hr
    have ⟨_, _, _, hs⟩ := isSecretSeed_eq_cons hs
    exact absurd (hs _ hm) (by decide)
  have ⟨prev, he⟩ := Pattern.replaceFrom_append hn none
  rw [bareSecretSeed_trailer hz] at he
  rw [redactFailureDetail, show bareSecretSeed.replaceAll (crossedSeed ++ z) = _ from he]
  exact blob_short ((takeWhile_trailer (trailer_bareSecretSeed hz) crossedSeed).trans_lt (by decide))

theorem leak_crossing (hp : Pattern.Margin p) (hq : Trailer q) (h : cover p = .bare) (hc : crosses q = true)
    (hl : (lead p).length + 56 ≤ 300) : ¬SeedsHidden p q := by
  intro hh
  have he := hh seedC seedBearer (by decide) (by decide)
  have ht {z} (hz : Trailer z) n : Trailer ((z.rdropWhile CharClass.isSpace).take n) :=
    trailer_prefix hz ((List.take_prefix ..).trans (List.rdropWhile_prefix ..))
  have ⟨z, hs, hz⟩ := crosses_bearer hq hc
  have ⟨r₁, h₁⟩ : ∃ r, toSafeDetail (p ++ seedC ++ q) = capped (redactFailureDetail (lead p) ++ 0x5B :: r) := by
    have hsp : ∀ u ∈ seedC, CharClass.isSpace u = false := List.forall_iff_forall_mem.mp (by decide)
    have hlen : seedC.length = 56 := rfl
    have ⟨r, hr⟩ := @blob_short 0x5B (redacted.tail ++ bareSecretSeed.replaceAll
      (((scrubbed q).rdropWhile CharClass.isSpace).take (300 - (lead p).length - 56))) (by
        rw [List.takeWhile_cons_of_neg (by decide)]
        decide)
    refine ⟨r, ?_⟩
    rw [List.append_assoc, toSafeDetail_word hp h (opens_seed (by decide) q)
      (scrubbed_mute (by decide) (by decide) (by decide) hsp q) hsp (by decide) (by omega), List.take_append,
      List.take_of_length_le (by omega), hlen, redact_seed (by decide) (ht (trailer_scrubbed hq) _), ← hr]
    rfl
  have ⟨r₂, h₂⟩ : ∃ r, toSafeDetail (p ++ seedBearer ++ q) = capped (redactFailureDetail (lead p) ++ 0x53 :: r) := by
    have hsp : ∀ u ∈ crossedSeed, CharClass.isSpace u = false := List.forall_iff_forall_mem.mp (by decide)
    have hlen : crossedSeed.length = 56 := rfl
    have ⟨r, hr⟩ := redact_crossed (ht hz (300 - (lead p).length - 56))
    refine ⟨r, ?_⟩
    rw [List.append_assoc, toSafeDetail_word hp h (opens_seed (by decide) q) hs hsp (by decide) (by omega),
      List.take_append, List.take_of_length_le (by omega), hlen, hr]
  rw [h₁, h₂] at he
  have hlen := redact_length (lead p)
  exact capped_ne (by omega) (by decide) (by decide) (by decide : (0x5B : UInt16) ≠ 0x53) r₁ r₂ he

theorem seedsSafe_of_hidden (hp : Pattern.Margin p) (hq : Trailer q) (h : cover p = .bare) (hh : SeedsHidden p q) :
    SeedsSafe p q := by
  rw [SeedsSafe, h]
  by_cases hl : 299 ≤ (lead p).length
  case pos => exact .inl hl
  case neg =>
    have hl : (lead p).length < 299 := Nat.lt_of_not_le hl
    have hc : (lead p).length + 56 ≤ 300 := Nat.le_of_not_lt fun hc => leak_cut hp h hl hc hh
    exact .inr ⟨Bool.eq_false_iff.mpr fun hx => leak_crossing hp hq h hx hc hh, hc⟩

-- Two envelopes, one of which contains a seed
def envelopeC : JsString :=
  List.replicate 120 0x43

def envelopeSeed : JsString :=
  0x43 :: 0x2B :: (seedC ++ 0x2B :: List.replicate 61 0x43)

theorem not_isSecretSeed_head (h : c ≠ 0x53) : isSecretSeed ((c :: l).take 56) = false := by
  refine Bool.eq_false_iff.mpr fun hs => ?_
  have ⟨_, he, _⟩ := isSecretSeed_eq_cons hs
  exact h (List.cons.inj he).1

theorem isEnvelope_replicate (hc : isLetter c = true) : IsEnvelope (List.replicate 120 c) where
  length := by rw [List.length_replicate]
  groups := by
    rw [List.length_replicate]
    decide
  letter := hc
  body   := ⟨_, 0, (List.append_nil _).symm, Nat.zero_le _, fun u hu =>
    (List.mem_replicate.mp hu).2 ▸ isBase64_of_isLetter hc⟩

theorem isEnvelope_envelopeSeed : IsEnvelope envelopeSeed where
  length := by decide
  groups := by decide
  letter := by decide
  body   := ⟨_, 0, (List.append_nil _).symm, Nat.zero_le _, List.forall_iff_forall_mem.mp (by decide)⟩

theorem redact_replicate (hc : c ≠ 0x53) (hn : n < 120) :
    redactFailureDetail (List.replicate n c) = List.replicate n c := by
  refine redact_short (by rwa [List.length_replicate]) fun u hu => ?_
  cases u with
  | nil      => rfl
  | cons d u =>
    have hd : d = c := (List.mem_replicate.mp (hu.subset (List.mem_cons_self ..))).2
    exact not_isSecretSeed_head (hd ▸ hc)

theorem redact_envelopeC (z : JsString) : ∃ r, redactFailureDetail (envelopeC ++ z) = 0x5B :: r := by
  have hn u (hu : u <:+ envelopeC) (hne : u ≠ []) (prev : Option UInt16) : bareSecretSeed prev (u ++ z) = none := by
    match u, hne with
    | d :: u, _ =>
      have hd : d = 0x43 := (List.mem_replicate.mp (hu.subset (List.mem_cons_self ..))).2
      exact bareSecretSeed_eq_none (not_isSecretSeed_head (hd ▸ by decide)) prev
  have ⟨prev, he⟩ := Pattern.replaceFrom_append hn none
  rw [redactFailureDetail, show bareSecretSeed.replaceAll (envelopeC ++ z) = _ from he]
  refine blob_long (by decide) ?_
  change 120 ≤ ((envelopeC ++ _).takeWhile isBase64).length
  rw [List.takeWhile_append_of_pos (List.forall_iff_forall_mem.mp (by decide)), List.length_append]
  exact Nat.le_add_right 120 _

-- The seed that is removed from the envelope breaks its run.
theorem redact_envelopeSeed (z : JsString) : ∃ r, redactFailureDetail (envelopeSeed ++ z) = 0x43 :: r := by
  have h₁ : bareSecretSeed none (envelopeSeed ++ z) = none :=
    bareSecretSeed_eq_none (not_isSecretSeed_head (by decide)) _
  have h₂ : bareSecretSeed (some 0x43) (0x2B :: (seedC ++ 0x2B :: List.replicate 61 0x43 ++ z)) = none :=
    bareSecretSeed_eq_none (not_isSecretSeed_head (by decide)) _
  have hw : ¬(0x2B :: List.replicate 61 0x43 ++ z).head?.any isWord = true := by
    rw [List.cons_append, List.head?_cons]
    decide
  have ⟨prev, h₃⟩ := @replaceFrom_seed seedC _ (some 0x2B) (by decide) (by decide) hw
  have he := (Pattern.replaceFrom_none h₁).trans (congrArg (0x43 :: ·) ((Pattern.replaceFrom_none h₂).trans
    (congrArg (0x2B :: ·) ((congrArg _ (List.append_assoc ..)).trans h₃))))
  rw [redactFailureDetail, show bareSecretSeed.replaceAll (envelopeSeed ++ z) = _ from he]
  refine blob_short ?_
  rw [List.takeWhile_cons_of_pos (by decide), List.takeWhile_cons_of_pos (by decide),
    show redacted = 0x5B :: redacted.tail by decide, List.cons_append, List.takeWhile_cons_of_neg (by decide)]
  decide

theorem envelopesSafe_of_hidden (hp : Pattern.Margin p) (h : cover p = .bare) (hh : EnvelopesHidden p q) :
    EnvelopesSafe p q := by
  rw [EnvelopesSafe, h]
  refine Nat.le_of_not_lt fun hl => ?_
  have hlen := redact_length (lead p)
  have hlen : (redactFailureDetail (lead p)).length < 300 := by omega
  have ht {e} (he : IsEnvelope e) (hsp : ∀ u ∈ e, CharClass.isSpace u = false) (h₁ : bearerToken.mute e = true)
      (h₂ : labelledSecret.mute e = true) (h₃ : labelledEnvelope.mute e = true) :
      toSafeDetail (p ++ e ++ q) = capped (redactFailureDetail (lead p) ++
        redactFailureDetail ((e ++ (scrubbed q).rdropWhile CharClass.isSpace).take (300 - (lead p).length))) := by
    have ⟨_, ho⟩ := opens_envelope he q
    rw [List.append_assoc, toSafeDetail_word hp h ho (scrubbed_mute h₁ h₂ h₃ hsp q) hsp
      (fun hn => by have := he.length; rw [hn] at this; cases this) hl.le]
  have hC := isEnvelope_replicate (c := 0x43) (by decide)
  have hD := isEnvelope_replicate (c := 0x44) (by decide)
  have tC := ht hC (List.forall_iff_forall_mem.mp (by decide)) (by decide) (by decide) (by decide)
  by_cases hv : 300 - (lead p).length < 120
  case pos =>
    have he := hh _ _ hC hD rfl
    have ⟨n, hn⟩ := Nat.exists_eq_add_of_lt hl
    have hv' : 300 - (lead p).length = n + 1 := by omega
    have tD := ht hD (List.forall_iff_forall_mem.mp (by decide)) (by decide) (by decide) (by decide)
    rw [tC, tD, hv', List.take_append_of_le_length (by rw [List.length_replicate]; omega),
      List.take_append_of_le_length (by rw [List.length_replicate]; omega), List.take_replicate, List.take_replicate,
      Nat.min_eq_left (by omega), redact_replicate (by decide) (by omega), redact_replicate (by decide) (by omega)] at he
    exact capped_ne hlen (by decide) (by decide) (by decide : (0x43 : UInt16) ≠ 0x44) (List.replicate n 0x43)
      (List.replicate n 0x44) he
  case neg =>
    have he := hh _ _ hC isEnvelope_envelopeSeed rfl
    have tS := ht isEnvelope_envelopeSeed (List.forall_iff_forall_mem.mp (by decide)) (by decide) (by decide) (by decide)
    have hv : 120 ≤ 300 - (lead p).length := Nat.le_of_not_lt hv
    have hcut {e : JsString} (hl : e.length = 120) z : (e ++ z).take (300 - (lead p).length) =
        e ++ z.take (300 - (lead p).length - 120) := by
      rw [List.take_append, List.take_of_length_le (hl.trans_le hv), hl]
    rw [tC, tS, hcut rfl, hcut rfl] at he
    have ⟨r₁, h₁⟩ := redact_envelopeC (((scrubbed q).rdropWhile CharClass.isSpace).take (300 - (lead p).length - 120))
    have ⟨r₂, h₂⟩ := redact_envelopeSeed (((scrubbed q).rdropWhile CharClass.isSpace).take (300 - (lead p).length - 120))
    rw [h₂, show redactFailureDetail (List.replicate 120 0x43 ++ _) = _ from h₁] at he
    exact capped_ne hlen (by decide) (by decide) (by decide : (0x5B : UInt16) ≠ 0x43) r₁ r₂ he

end Leaks

-- Without a label in front of it, the conditions are also necessary.
theorem details_hidden (hp : Pattern.Margin p) (hq : Trailer q) :
    (SeedsSafe p q → SeedsHidden p q) ∧ (EnvelopesSafe p q → EnvelopesHidden p q) ∧
      (cover p = .bare → (SeedsHidden p q ↔ SeedsSafe p q) ∧ (EnvelopesHidden p q ↔ EnvelopesSafe p q)) := by
  refine ⟨seedsHidden_of_safe hp hq, envelopesHidden_of_safe hp hq, fun h => ⟨?_, ?_⟩⟩
  · exact ⟨seedsSafe_of_hidden hp hq h, seedsHidden_of_safe hp hq⟩
  · exact ⟨envelopesSafe_of_hidden hp h, envelopesHidden_of_safe hp hq⟩

theorem details_hidden_sample : SeedsHidden (.ofString "Rejected for ") (.ofString " (twice)") ∧
    ¬EnvelopesHidden (.ofString "Rejected for ") (.ofString " (twice)") := by
  have hp : Pattern.Margin (.ofString "Rejected for ") := .inr ⟨.ofString "Rejected for", by decide⟩
  have hq : Trailer (.ofString " (twice)") := fun c hc => (Option.some.inj hc).symm
  have hc : cover (.ofString "Rejected for ") = .bare := by decide
  have ⟨h₁, _, h₂⟩ := details_hidden hp hq
  refine ⟨h₁ ?_, fun h => ?_⟩
  · rw [SeedsSafe, hc]
    exact .inr (by decide)
  · have h := (h₂ hc).2.mp h
    rw [EnvelopesSafe, hc] at h
    exact absurd h (by decide)

-- Fifty units of a seed behind a text of 250 units are left.
theorem details_exposed : ¬∀ p q, Pattern.Margin p → Trailer q → SeedsHidden p q ∧ EnvelopesHidden p q := by
  intro h
  have hm : Pattern.Margin (List.replicate 249 0x2E ++ [Pattern.space]) := .inr ⟨_, rfl⟩
  have ht : Trailer [] := fun c hc => absurd hc (Option.not_mem_none c)
  have hletter u (hu : u ∈ List.replicate 249 0x2E) : isLetter u = false := (List.mem_replicate.mp hu).2 ▸ by decide
  have hspace u (hu : u ∈ List.replicate 249 0x2E) : CharClass.isSpace u = false :=
    (List.mem_replicate.mp hu).2 ▸ by decide
  have hl : (lead (List.replicate 249 0x2E ++ [Pattern.space])).length = 250 := by
    rw [lead, scrubbed_mute (mute_of_letters bearerToken_plain hletter) (mute_of_letters labelledSecret_plain hletter)
      (mute_of_letters labelledEnvelope_plain hletter) hspace, List.replicate_succ, List.cons_append,
      List.dropWhile_cons_of_neg (by decide), List.length_cons, List.length_append, List.length_replicate]
    decide
  have hc : cover (List.replicate 249 0x2E ++ [Pattern.space]) = .bare := by
    rw [cover_append hletter]
    decide
  exact leak_cut hm hc (by omega) (by omega) (h _ [] hm ht).1

end Mergepay.Settlement
