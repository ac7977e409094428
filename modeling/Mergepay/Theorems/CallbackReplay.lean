import Mergepay.Anchors.Callbacks

namespace Mergepay.Anchors

-- A callback that an anchor has sent, with a signature and a timestamp that the server can read.
structure SignedCallback (hmac : Hmac) (secret : String) where
  rawBody   : List UInt8
  signature : String
  timestamp : String
  sentAt    : Instant
  signed    : normalizeSignature (.single signature) = some (signSep24Payload hmac rawBody secret)
  dated     : parseTimestamp (.single timestamp) = some (sentAt.ms : Rat)

-- Sends the callback again, with another timestamp.
def SignedCallback.replay (callback : SignedCallback hmac secret) (timestamp : HeaderValue) : CallbackRequest where
  rawBody   := callback.rawBody
  signature := .single callback.signature
  timestamp := timestamp

-- The signatures which somebody knows who has recorded some callbacks: no signature of another body is among them.
structure Eavesdropper (hmac : Hmac) (secret : String) (callbacks : Set (SignedCallback hmac secret)) where
  knows : List Char → Prop
  hears : ∀ c ∈ callbacks, knows (signSep24Payload hmac c.rawBody secret)
  ideal : ∀ rawBody, knows (signSep24Payload hmac rawBody secret) → ∃ c ∈ callbacks, c.rawBody = rawBody

variable {callbacks : Set (SignedCallback hmac secret)}

namespace Eavesdropper

def Forms (e : Eavesdropper hmac secret callbacks) (request : CallbackRequest) : Prop :=
  ∀ signature ∈ normalizeSignature request.signature, e.knows signature

theorem forms_replay (e : Eavesdropper hmac secret callbacks) (hc : c ∈ callbacks) (timestamp : HeaderValue) :
    e.Forms (c.replay timestamp) := by
  intro signature hs
  have he : signSep24Payload hmac c.rawBody secret = signature := Option.some.inj (c.signed.symm.trans hs)
  exact he ▸ e.hears c hc

theorem recorded_of_accepted (e : Eavesdropper hmac secret callbacks) (hf : e.Forms request)
    (h : verifySep24Signature hmac request secret now toleranceMs = .ok ()) :
    ∃ c ∈ callbacks, c.rawBody = request.rawBody :=
  e.ideal _ <| hf _ (verifySep24Signature_eq_ok.mp h).1

end Eavesdropper

def Instant.Within (now t : Instant) (toleranceMs : Nat) : Prop :=
  |(now.ms : Int) - t.ms| ≤ toleranceMs

instance (now t : Instant) : Decidable (now.Within t toleranceMs) :=
  inferInstanceAs (Decidable (_ ≤ _))

theorem within_of_accepted {t : Instant} (ht : parseTimestamp request.timestamp = some (t.ms : Rat))
    (h : verifySep24Signature hmac request secret now toleranceMs = .ok ()) : now.Within t toleranceMs :=
  (isStale_eq_false now t).mp <| (verifySep24Signature_eq_ok.mp h).2 _ ht

theorem SignedCallback.accepted_iff (c : SignedCallback hmac secret) {timestamp : HeaderValue} :
    verifySep24Signature hmac (c.replay timestamp) secret now toleranceMs = .ok () ↔
      ∀ t ∈ parseTimestamp timestamp, isStale now t toleranceMs = false :=
  verifySep24Signature_eq_ok.trans <| and_iff_right c.signed

-- Replays are bounded by the timestamp that they carry. Without one, the signature alone is the gate.
theorem replay_bounded (e : Eavesdropper hmac secret callbacks) (now : Instant) (toleranceMs : Nat) :
    (∀ request, e.Forms request → verifySep24Signature hmac request secret now toleranceMs = .ok () →
      (∃ c ∈ callbacks, c.rawBody = request.rawBody) ∧
      (∀ t : Instant, parseTimestamp request.timestamp = some (t.ms : Rat) → now.Within t toleranceMs)) ∧
    (∀ c ∈ callbacks, ∀ timestamp, e.Forms (c.replay timestamp)) ∧
    (∀ c ∈ callbacks, verifySep24Signature hmac (c.replay (.single c.timestamp)) secret now toleranceMs = .ok () ↔
      now.Within c.sentAt toleranceMs) ∧
    (∀ c ∈ callbacks, verifySep24Signature hmac (c.replay .missing) secret now toleranceMs = .ok ()) := by
  refine ⟨fun request hf h => ⟨?recorded, ?within⟩, ?forms, ?own, ?missing⟩
  case recorded => exact e.recorded_of_accepted hf h
  case within   => exact fun t ht => within_of_accepted ht h
  case forms    => exact fun c => e.forms_replay
  case own =>
    intro c _
    rw [c.accepted_iff, c.dated]
    simp only [Option.mem_def, Option.some.injEq, forall_eq']
    exact isStale_eq_false now c.sentAt
  case missing =>
    intro c _
    refine c.accepted_iff.mpr fun t ht => ?_
    contradiction

section Sample

def sampleBody : List UInt8 :=
  [0x7b, 0x7d]

def sampleHmac : Hmac where
  digest secret rawBody :=
    if secret = "secret" ∧ rawBody = sampleBody then
      "77325902caca812dc259733aacd046b73817372c777b8d95b402647474516e13".toList
    else
      List.replicate 64 '0'
  digest_length _ _ := by
    split <;> rfl
  digest_hex _ _ := by
    split <;> exact List.forall_iff_forall_mem.mp (by decide)

def sampleCallback : SignedCallback sampleHmac "secret" where
  rawBody   := sampleBody
  signature := "sha256=77325902caca812dc259733aacd046b73817372c777b8d95b402647474516e13"
  timestamp := "1700000000000"
  sentAt    := ⟨1700000000000, by decide⟩
  signed    := by decide +kernel
  dated     := parseTimestamp_render (n := 1700000000000) (by decide) (by decide) (by decide)

def sampleEavesdropper : Eavesdropper sampleHmac "secret" {sampleCallback} where
  knows signature := signature = signSep24Payload sampleHmac sampleBody "secret"
  hears _ hc := by
    rw [Set.mem_singleton_iff.mp hc]
    rfl
  ideal rawBody h := by
    by_cases hb : rawBody = sampleBody
    case pos => exact ⟨sampleCallback, rfl, hb.symm⟩
    case neg =>
      have hd : signSep24Payload sampleHmac rawBody "secret" = List.replicate 64 '0' := if_neg (by simp [hb])
      rw [hd] at h
      exact absurd h (by decide)

theorem replay_bounded_sample :
    verifySep24Signature sampleHmac (sampleCallback.replay (.single sampleCallback.timestamp)) "secret"
      ⟨1700000300000, by decide⟩ 300000 = .ok () := by
  refine ((replay_bounded sampleEavesdropper ⟨1700000300000, by decide⟩ 300000).2.2.1 _ rfl).mpr ?_
  decide

-- A year later, the callback is accepted without its timestamp.
theorem replay_unbounded :
    ¬∀ (hmac : Hmac) (secret : String) (callbacks : Set (SignedCallback hmac secret))
      (e : Eavesdropper hmac secret callbacks) (request : CallbackRequest) (now : Instant) (toleranceMs : Nat),
      e.Forms request → verifySep24Signature hmac request secret now toleranceMs = .ok () →
        ∃ c ∈ callbacks, c.rawBody = request.rawBody ∧ now.Within c.sentAt toleranceMs := by
  intro h
  have hok : verifySep24Signature sampleHmac (sampleCallback.replay .missing) "secret"
      ⟨1731536000000, by decide⟩ 300000 = .ok () :=
    sampleCallback.accepted_iff.mpr fun _ ht => nomatch ht
  obtain ⟨c, hc, _, hw⟩ := h _ _ _ sampleEavesdropper _ _ _ (sampleEavesdropper.forms_replay rfl _) hok
  rw [Set.mem_singleton_iff.mp hc] at hw
  revert hw
  decide

end Sample

end Mergepay.Anchors
