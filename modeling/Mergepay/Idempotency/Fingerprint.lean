import Mergepay.Text.Base64
import Mergepay.Text.Properties

-- The fingerprints of requests, which tell a retry from another request
namespace Mergepay.Idempotency

open Text

mutual

-- The plugin has a copy of this function. The values are canonicalized in place before the keys are sorted.
def canonicalize : Json → Json
  | .array items  => .array (canonicalizeItems items)
  | .object props => .object (Properties.arrange (canonicalizeProperties props))
  | value         => value

def canonicalizeItems : List Json → List Json
  | []      => []
  | v :: tl => canonicalize v :: canonicalizeItems tl

def canonicalizeProperties : List (JsString × Json) → List (JsString × Json)
  | []           => []
  | (k, v) :: tl => (k, canonicalize v) :: canonicalizeProperties tl

end

-- The digest of a text in UTF-8, in hexadecimal notation
def digest (sha256 : List UInt8 → String) (text : List Char) : String :=
  sha256 (Utf8.encode text)

def hashRequest (sha256 : List UInt8 → String) (scope resourceId : JsString) (payload : Json) : String :=
  digest sha256 <| Json.stringify <| canonicalize <| .object
    [(.ofString "scope", .string scope), (.ofString "resourceId", .string resourceId), (.ofString "payload", payload)]

def hashRequestBody (sha256 : List UInt8 → String) (scope : JsString) (body : Json) : String :=
  digest sha256 <| Json.stringify <| canonicalize <| .object
    [(.ofString "scope", .string scope), (.ofString "body", body)]

theorem canonicalizeItems_eq : ∀ l, canonicalizeItems l = l.map canonicalize
  | []     => rfl
  | _ :: l => congrArg _ (canonicalizeItems_eq l)

def canonicalizeProperty (p : JsString × Json) : JsString × Json :=
  (p.1, canonicalize p.2)

theorem canonicalizeProperties_eq : ∀ l, canonicalizeProperties l = l.map canonicalizeProperty
  | []     => rfl
  | _ :: l => congrArg _ (canonicalizeProperties_eq l)

theorem regular_canonicalize (h : Properties.Regular l) : Properties.Regular (canonicalizeProperties l) := by
  have hk : (canonicalizeProperties l).map (·.1) = l.map (·.1) := by
    rw [canonicalizeProperties_eq, List.map_map]
    rfl
  exact ⟨hk ▸ h.nodup, hk ▸ h.proto⟩

section List

variable {β γ : Type} {f : β → γ} {R : β → β → Prop} {l m : List β}

theorem map_eq_map_iff (h : ∀ a ∈ l, ∀ b ∈ m, f a = f b ↔ R a b) : l.map f = m.map f ↔ List.Forall₂ R l m := by
  induction l generalizing m with
  | nil       => cases m <;> simp
  | cons a l hi =>
    cases m with
    | nil      => simp
    | cons b m =>
      simp only [List.map_cons, List.cons.injEq, List.forall₂_cons]
      refine and_congr (h a List.mem_cons_self b List.mem_cons_self) (hi fun a ha b hb => ?_)
      exact h a (List.mem_cons_of_mem _ ha) b (List.mem_cons_of_mem _ hb)

-- A permutation of images stems from a permutation.
theorem map_perm_map_iff : (l.map f).Perm (m.map f) ↔ ∃ m' : List β, m'.Perm m ∧ l.map f = m'.map f := by
  have h : Relation.Comp (· = List.map f ·) List.Perm (l.map f) m ↔ (l.map f).Perm (m.map f) :=
    iff_of_eq <| congrFun₂ (List.eq_map_comp_perm f) (l.map f) m
  exact h.symm.trans <| exists_congr fun _ => and_comm

end List

-- Values have the same canonical form just if they are the same up to the order of their keys.
theorem canonicalize_eq_iff {v w : Json} (hv : v.Plain) (hw : w.Plain) :
    canonicalize v = canonicalize w ↔ v.Same w := by
  induction v using Json.induct generalizing w with
  | array l hi =>
    cases w with
    | array m =>
      rw [Json.Plain, Json.plainItems_iff] at hv hw
      simp only [canonicalize, canonicalizeItems_eq, Json.array.injEq, Json.Same, Json.sameItems_iff]
      exact map_eq_map_iff fun v hm w hm' => hi v hm (hv v hm) (hw w hm')
    | _ => simp [canonicalize, Json.Same]
  | object l hi =>
    cases w with
    | object m =>
      rw [Json.Plain, Json.plainProperties_iff] at hv hw
      simp only [canonicalize, Json.object.injEq, Json.Same, Json.sameProperties_iff]
      rw [Properties.arrange_eq_iff (regular_canonicalize hv.1) (regular_canonicalize hw.1),
        canonicalizeProperties_eq, canonicalizeProperties_eq, map_perm_map_iff]
      refine exists_congr fun m' => and_congr_right fun hp => map_eq_map_iff fun p hm q hm' => ?_
      rw [canonicalizeProperty, canonicalizeProperty, Prod.mk.injEq, hi p hm (hv.2 p hm) (hw.2 q (hp.mem_iff.mp hm'))]
    | _ => simp [canonicalize, Json.Same]
  | _ => cases w <;> simp [canonicalize, Json.Same]

-- A value of JSON, in whose objects no key occurs twice or sets the prototype
structure Payload where
  value : Json
  plain : value.Plain

variable {sha256 : List UInt8 → String}

theorem digest_eq_iff (h : Function.Injective sha256) {v w : Json} (hv : v.Plain) (hw : w.Plain) :
    digest sha256 (canonicalize v).stringify = digest sha256 (canonicalize w).stringify ↔ v.Same w := by
  rw [← canonicalize_eq_iff hv hw]
  constructor
  case mp =>
    intro he
    have hs : (canonicalize v).stringify = (canonicalize w).stringify := by
      rw [← Utf8.decode_encode (canonicalize v).stringify, h he, Utf8.decode_encode]
    have hn : Json.Ends [] := nofun
    exact (Json.stringify_inj hn hn (by rw [hs])).1
  case mpr => exact fun he => by rw [he]

theorem plain_object {l : List (JsString × Json)} (h : Properties.Regular l) (hv : ∀ p ∈ l, p.2.Plain) :
    Json.Plain (.object l) :=
  ⟨h, Json.plainProperties_iff.mpr hv⟩

-- The fingerprints of requests are equal just if the requests are the same, up to the order of keys.
theorem fingerprints_separate (h : Function.Injective sha256) :
    (∀ (scope scope' resourceId resourceId' : JsString) (p q : Payload),
      hashRequest sha256 scope resourceId p.value = hashRequest sha256 scope' resourceId' q.value ↔
        scope = scope' ∧ resourceId = resourceId' ∧ p.value.Same q.value) ∧
    (∀ (scope scope' : JsString) (p q : Payload),
      hashRequestBody sha256 scope p.value = hashRequestBody sha256 scope' q.value ↔
        scope = scope' ∧ p.value.Same q.value) := by
  refine ⟨fun scope scope' resourceId resourceId' p q => ?service, fun scope scope' p q => ?plugin⟩
  case service =>
    have hk : [JsString.ofString "scope", .ofString "resourceId", .ofString "payload"].Nodup := by decide
    have hn : .ofString "__proto__" ∉ [JsString.ofString "scope", .ofString "resourceId", .ofString "payload"] := by
      decide
    have hp (s r : JsString) (p : Payload) : Json.Plain (.object
        [(.ofString "scope", .string s), (.ofString "resourceId", .string r), (.ofString "payload", p.value)]) :=
      plain_object ⟨hk, hn⟩ (by simp [Json.Plain, p.plain])
    refine (digest_eq_iff h (hp ..) (hp ..)).trans ?_
    refine (Json.same_object_iff ?_ ?_).trans ?_
    · exact hk
    · rfl
    · simp [Json.SameProperties, Json.Same]
  case plugin =>
    have hk : [JsString.ofString "scope", .ofString "body"].Nodup := by decide
    have hn : .ofString "__proto__" ∉ [JsString.ofString "scope", .ofString "body"] := by decide
    have hp (s : JsString) (p : Payload) : Json.Plain (.object [(.ofString "scope", .string s), (.ofString "body", p.value)]) :=
      plain_object ⟨hk, hn⟩ (by simp [Json.Plain, p.plain])
    refine (digest_eq_iff h (hp ..) (hp ..)).trans ?_
    refine (Json.same_object_iff ?_ ?_).trans ?_
    · exact hk
    · rfl
    · simp [Json.SameProperties, Json.Same]

section Sample

-- The text whose digest is known, and other texts
def sampleText : List Char :=
  "\x7b\"payload\":\x7b\"9\":null,\"a\":true\x7d,\"resourceId\":\"s-1\",\"scope\":\"settlement.create\"\x7d".toList

def sampleSha256 (bytes : List UInt8) : String :=
  if bytes = Utf8.encode sampleText then
    .ofList "21c3e8cd06d1e82d3c5149046e19c06be358281973a52868bd7d46622d1e9d04".toList
  else
    .ofList ('#' :: Base64.encode bytes)

theorem sampleSha256_injective : Function.Injective sampleSha256 := by
  intro a b h
  unfold sampleSha256 at h
  split at h <;> split at h
  case isTrue.isTrue ha hb => rw [ha, hb]
  case isTrue.isFalse      =>
    have he := String.ofList_injective h
    exact absurd (List.cons.inj he).1 (by decide)
  case isFalse.isTrue      =>
    have he := String.ofList_injective h
    exact absurd (List.cons.inj he).1 (by decide)
  case isFalse.isFalse     =>
    have he := (List.cons.inj (String.ofList_injective h)).2
    rw [← Base64.decode_encode a, he, Base64.decode_encode]

def samplePayload : Payload where
  value := .object [(.ofString "a", .bool true), (.ofString "9", .null)]
  plain := plain_object ⟨by decide, by decide⟩ (by simp [Json.Plain])

def sampleRetry : Payload where
  value := .object [(.ofString "9", .null), (.ofString "a", .bool true)]
  plain := plain_object ⟨by decide, by decide⟩ (by simp [Json.Plain])

theorem fingerprints_separate_sample :
    hashRequest sampleSha256 (.ofString "settlement.create") (.ofString "s-1") samplePayload.value =
      hashRequest sampleSha256 (.ofString "settlement.create") (.ofString "s-1") sampleRetry.value := by
  refine ((fingerprints_separate sampleSha256_injective).1 _ _ _ _ samplePayload sampleRetry).mpr ⟨rfl, rfl, ?_⟩
  exact ⟨_, .swap .., rfl, rfl, rfl, rfl, trivial⟩

end Sample

end Mergepay.Idempotency
