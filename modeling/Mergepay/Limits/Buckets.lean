import Mergepay.Data.FixedWindow
import Mergepay.Data.OrderedMap
import Mergepay.Text.JsString

namespace Mergepay.Limits

open Text

inductive RateLimitPolicyName
  | global | authChallenge | authVerify | authLogout | expenseCreate | expenseMutate | treasuryConfig | webhookTest
  | settlementCreate | settlementConfirm | settlementExecute | treasurySubmit | treasuryPropose | anchorInit | anchorPoll
  | anchorWebhook | sep24Callback | sep24Webhook | groupCreate | groupInvite | groupJoin | history | exchangeRates
  | webhookCreate | uploadReceipt
  deriving DecidableEq

inductive KeyBy
  | userOrIp
  | ip

inductive Hook
  | onRequest
  | preHandler

-- The two settings of a policy: a maximum, and a number of milliseconds.
structure Tier where
  max        : Nat
  timeWindow : Nat

-- Both policies for callbacks of SEP-24 share their settings.
structure Config where
  global            : Tier
  authChallenge     : Tier
  authVerify        : Tier
  authLogout        : Tier
  expenseCreate     : Tier
  expenseMutate     : Tier
  settlementCreate  : Tier
  settlementConfirm : Tier
  settlementExecute : Tier
  treasurySubmit    : Tier
  treasuryPropose   : Tier
  treasuryConfig    : Tier
  anchorInit        : Tier
  anchorPoll        : Tier
  anchorWebhook     : Tier
  sep24             : Tier
  group             : Tier
  history           : Tier
  exchangeRates     : Tier
  groupInvite       : Tier
  groupJoin         : Tier
  webhookCreate     : Tier
  webhookTest       : Tier
  uploadReceipt     : Tier

def Config.default : Config where
  global            := ⟨100, 60000⟩
  authChallenge     := ⟨20, 60000⟩
  authVerify        := ⟨10, 60000⟩
  authLogout        := ⟨20, 60000⟩
  expenseCreate     := ⟨30, 60000⟩
  expenseMutate     := ⟨30, 60000⟩
  settlementCreate  := ⟨20, 60000⟩
  settlementConfirm := ⟨20, 60000⟩
  settlementExecute := ⟨20, 60000⟩
  treasurySubmit    := ⟨30, 60000⟩
  treasuryPropose   := ⟨20, 60000⟩
  treasuryConfig    := ⟨10, 60000⟩
  anchorInit        := ⟨10, 60000⟩
  anchorPoll        := ⟨60, 60000⟩
  anchorWebhook     := ⟨50, 60000⟩
  sep24             := ⟨10, 60000⟩
  group             := ⟨10, 60000⟩
  history           := ⟨30, 60000⟩
  exchangeRates     := ⟨30, 60000⟩
  groupInvite       := ⟨10, 60000⟩
  groupJoin         := ⟨10, 60000⟩
  webhookCreate     := ⟨10, 60000⟩
  webhookTest       := ⟨5, 60000⟩
  uploadReceipt     := ⟨20, 60000⟩

structure RateLimitPolicy extends Tier where
  keyBy     : KeyBy
  keyPrefix : String
  hook      : Hook

def rateLimitPolicies (config : Config) : RateLimitPolicyName → RateLimitPolicy
  | .global            => ⟨config.global, .userOrIp, "global", .onRequest⟩
  | .authChallenge     => ⟨config.authChallenge, .ip, "auth.challenge", .onRequest⟩
  | .authVerify        => ⟨config.authVerify, .ip, "auth.verify", .onRequest⟩
  | .authLogout        => ⟨config.authLogout, .ip, "auth.logout", .onRequest⟩
  | .expenseCreate     => ⟨config.expenseCreate, .userOrIp, "expense.create", .preHandler⟩
  | .expenseMutate     => ⟨config.expenseMutate, .userOrIp, "expense.mutate", .preHandler⟩
  | .settlementCreate  => ⟨config.settlementCreate, .userOrIp, "settlement.create", .preHandler⟩
  | .settlementConfirm => ⟨config.settlementConfirm, .userOrIp, "settlement.confirm", .preHandler⟩
  | .settlementExecute => ⟨config.settlementExecute, .userOrIp, "settlement.execute", .preHandler⟩
  | .treasurySubmit    => ⟨config.treasurySubmit, .userOrIp, "treasury.submit", .preHandler⟩
  | .treasuryPropose   => ⟨config.treasuryPropose, .userOrIp, "treasury.propose", .preHandler⟩
  | .treasuryConfig    => ⟨config.treasuryConfig, .userOrIp, "treasury.config", .preHandler⟩
  | .anchorInit        => ⟨config.anchorInit, .userOrIp, "anchor.init", .preHandler⟩
  | .anchorPoll        => ⟨config.anchorPoll, .userOrIp, "anchor.poll", .preHandler⟩
  | .anchorWebhook     => ⟨config.anchorWebhook, .ip, "anchor.webhook", .onRequest⟩
  | .sep24Callback     => ⟨config.sep24, .ip, "sep24.callback", .onRequest⟩
  | .sep24Webhook      => ⟨config.sep24, .ip, "sep24.webhook", .onRequest⟩
  | .groupCreate       => ⟨config.group, .userOrIp, "group.create", .preHandler⟩
  | .history           => ⟨config.history, .userOrIp, "history.read", .preHandler⟩
  | .exchangeRates     => ⟨config.exchangeRates, .ip, "rates.read", .onRequest⟩
  | .groupInvite       => ⟨config.groupInvite, .userOrIp, "group.invite", .preHandler⟩
  | .groupJoin         => ⟨config.groupJoin, .ip, "group.join", .onRequest⟩
  | .webhookCreate     => ⟨config.webhookCreate, .userOrIp, "webhook.create", .preHandler⟩
  | .webhookTest       => ⟨config.webhookTest, .userOrIp, "webhook.test", .preHandler⟩
  | .uploadReceipt     => ⟨config.uploadReceipt, .userOrIp, "upload.receipt", .preHandler⟩

structure AuthUser where
  id               : JsString
  stellarPublicKey : Option JsString

structure Request where
  user          : Option AuthUser
  ip            : Option JsString
  authorization : Option JsString

def maxKeyLength : Nat :=
  200

def bound (key : JsString) : JsString :=
  key.take maxKeyLength

def normalizeIp (ip : Option JsString) : JsString :=
  ((ip.filter (·.length > 0)).getD <| .ofString "unknown").take maxKeyLength

def ipKey (keyPrefix : String) (req : Request) : JsString :=
  bound <| .ofString keyPrefix ++ .ofString ":ip:" ++ normalizeIp req.ip

def userOrIpKey (keyPrefix : String) (req : Request) : JsString :=
  match req.user.map fun user => user.stellarPublicKey.getD user.id with
  | some (u :: userKey) => bound <| .ofString keyPrefix ++ .ofString ":public-key:" ++ u :: userKey
  | _                   => bound <| .ofString keyPrefix ++ .ofString ":ip:" ++ normalizeIp req.ip

def policyKeyGenerator (policy : RateLimitPolicy) : Request → JsString :=
  match policy.keyBy with
  | .ip       => ipKey policy.keyPrefix
  | .userOrIp => userOrIpKey policy.keyPrefix

def trim (l : JsString) : JsString :=
  ((l.dropWhile CharClass.isSpace).reverse.dropWhile CharClass.isSpace).reverse

-- Tokens that are not verified leave their requests with an address only.
def globalRateLimitKey (verifyToken : JsString → Option AuthUser) (req : Request) : JsString :=
  let user := do
    let authorization ← req.authorization
    guard <| JsString.ofString "Bearer " <+: authorization
    verifyToken (trim <| authorization.drop 7)
  match user with
  | some user => .ofString "global:user:" ++ user.id
  | none      => .ofString "global:ip:" ++ req.ip.getD (.ofString "undefined")

-- The limiter for all routes has a key of its own.
def keyGenerator (config : Config) (verifyToken : JsString → Option AuthUser) (name : RateLimitPolicyName) :
    Request → JsString :=
  if name = .global then globalRateLimitKey verifyToken
  else policyKeyGenerator (rateLimitPolicies config name)

structure Row where
  count     : Nat
  resetAt   : Int
  updatedAt : Int

structure IncrResult where
  current : Nat
  ttl     : Int

-- One statement of the database. Its row is locked, so there are no others between a look at the row and its update.
def upsert (now resetAt : Int) : Option Row → Row
  | none     => ⟨1, resetAt, now⟩
  | some row => {
      count     := if row.resetAt ≤ now then 1 else row.count + 1
      resetAt   := if row.resetAt ≤ now then resetAt else row.resetAt
      updatedAt := now
    }

namespace PrismaRateLimitStore

abbrev Rows := OrderedMap JsString Row

def incr (timeWindow : Nat) (rows : Rows) (key : JsString) (now : Int) : IncrResult × Rows :=
  let boundedKey := bound key
  let row := upsert now (now + timeWindow) (rows.get? boundedKey)
  (⟨row.count, max 0 (row.resetAt - now)⟩, rows.set boundedKey row)

end PrismaRateLimitStore

-- A statement may fail, before or after it took effect. The limiter then skips its check.
inductive Fate
  | answered
  | unanswered
  | failed
  deriving DecidableEq

-- A request of some server, with the reading of the server's clock. Requests are in the order of their statements.
structure Arrival where
  policy  : RateLimitPolicyName
  request : Request
  now     : Int
  fate    : Fate

section

variable (config : Config) (verifyToken : JsString → Option AuthUser)

def Arrival.key (a : Arrival) : JsString :=
  bound <| keyGenerator config verifyToken a.policy a.request

def timeWindow (name : RateLimitPolicyName) : Nat :=
  (rateLimitPolicies config name).timeWindow

def serve (rows : PrismaRateLimitStore.Rows) (a : Arrival) : Option IncrResult × PrismaRateLimitStore.Rows :=
  let (result, rows') := PrismaRateLimitStore.incr (timeWindow config a.policy) rows
    (keyGenerator config verifyToken a.policy a.request) a.now
  match a.fate with
  | .answered   => (some result, rows')
  | .unanswered => (none, rows')
  | .failed     => (none, rows)

-- What the limiter is told for each of its requests.
def run (arrivals : List Arrival) : List (Arrival × Option IncrResult) × PrismaRateLimitStore.Rows :=
  arrivals.foldl (fun (told, rows) a =>
    (told ++ [(a, (serve config verifyToken rows a).1)], (serve config verifyToken rows a).2)) ([], [])

end

-- Whom a request is counted for
inductive Identity
  | user (userKey : JsString)
  | ip (addr : JsString)
  deriving DecidableEq

namespace Identity

def text : Identity → JsString
  | .user userKey => userKey
  | .ip addr      => addr

def isUser : Identity → Bool
  | .user _ => true
  | .ip _   => false

def kind (name : RateLimitPolicyName) : Identity → String
  | .user _ => if name = .global then "user" else "public-key"
  | .ip _   => "ip"

end Identity

def address (req : Request) : Identity :=
  .ip <| normalizeIp req.ip

-- Requests are counted for their users where there are such and the policy is for users, else for their addresses.
def identity (config : Config) (verifyToken : JsString → Option AuthUser) (name : RateLimitPolicyName) (req : Request) :
    Identity :=
  if name = .global then
    match req.authorization.filter (JsString.ofString "Bearer " <+: ·) >>= fun s => verifyToken (trim <| s.drop 7) with
    | some user => .user user.id
    | none      => .ip <| req.ip.getD (.ofString "undefined")
  else match (rateLimitPolicies config name).keyBy with
    | .ip       => address req
    | .userOrIp => (((req.user.map fun user => user.stellarPublicKey.getD user.id).filter (· ≠ [])).map .user).getD <|
        address req

def Arrival.bucket (config : Config) (verifyToken : JsString → Option AuthUser) (a : Arrival) :
    RateLimitPolicyName × Identity :=
  (a.policy, identity config verifyToken a.policy a.request)

def RateLimitPolicyName.all : List RateLimitPolicyName :=
  [.global, .authChallenge, .authVerify, .authLogout, .expenseCreate, .expenseMutate, .treasuryConfig, .webhookTest,
    .settlementCreate, .settlementConfirm, .settlementExecute, .treasurySubmit, .treasuryPropose, .anchorInit,
    .anchorPoll, .anchorWebhook, .sep24Callback, .sep24Webhook, .groupCreate, .groupInvite, .groupJoin, .history,
    .exchangeRates, .webhookCreate, .uploadReceipt]

theorem RateLimitPolicyName.mem_all (name : RateLimitPolicyName) : name ∈ all := by
  cases name <;> decide

variable {config : Config} {verifyToken : JsString → Option AuthUser} {name name' : RateLimitPolicyName} {req : Request}

def keyPrefix (config : Config) (name : RateLimitPolicyName) : JsString :=
  .ofString (rateLimitPolicies config name).keyPrefix

theorem nodup_keyPrefix : (RateLimitPolicyName.all.map <| keyPrefix config).Nodup := by
  have h : (RateLimitPolicyName.all.map fun name => (rateLimitPolicies .default name).keyPrefix).Nodup := by
    decide
  have hc : RateLimitPolicyName.all.map (keyPrefix config) =
      (RateLimitPolicyName.all.map fun name => (rateLimitPolicies .default name).keyPrefix).map .ofString := rfl
  rw [hc]
  exact h.map JsString.ofString_injective

theorem keyPrefix_inj (h : keyPrefix config name = keyPrefix config name') : name = name' :=
  List.inj_on_of_nodup_map nodup_keyPrefix name.mem_all name'.mem_all h

theorem colon_not_mem_keyPrefix (config : Config) (name : RateLimitPolicyName) :
    0x3A ∉ keyPrefix config name ∧ (keyPrefix config name).length ≤ 18 := by
  cases name <;> simp only [keyPrefix, rateLimitPolicies] <;> decide

theorem ofString_labels : JsString.ofString ":ip:" = 0x3A :: (JsString.ofString "ip" ++ [0x3A]) ∧
    JsString.ofString ":public-key:" = 0x3A :: (JsString.ofString "public-key" ++ [0x3A]) ∧
    JsString.ofString "global:user:" = JsString.ofString "global" ++ 0x3A :: (JsString.ofString "user" ++ [0x3A]) ∧
    JsString.ofString "global:ip:" = JsString.ofString "global" ++ 0x3A :: (JsString.ofString "ip" ++ [0x3A]) :=
  ⟨rfl, rfl, rfl, rfl⟩

theorem bound_bound (key : JsString) : bound (bound key) = bound key := by
  simp [bound]

-- A key names the policy, the kind of identity, and the identity.
def label (config : Config) (name : RateLimitPolicyName) (i : Identity) : JsString :=
  keyPrefix config name ++ 0x3A :: (JsString.ofString (i.kind name) ++ 0x3A :: i.text)

theorem globalRateLimitKey_eq (config : Config) :
    globalRateLimitKey verifyToken req = label config .global (identity config verifyToken .global req) := by
  have ⟨_, _, hu, hg⟩ := ofString_labels
  rw [globalRateLimitKey, identity, if_pos rfl]
  cases h : req.authorization with
  | none => simp [hg, label, keyPrefix, rateLimitPolicies, Identity.kind, Identity.text]
  | some authorization =>
    by_cases hb : JsString.ofString "Bearer " <+: authorization
    case neg => simp [Option.filter, hb, hg, label, keyPrefix, rateLimitPolicies, Identity.kind, Identity.text]
    case pos =>
      cases hv : verifyToken (trim <| authorization.drop 7) with
      | none   => simp [Option.filter, hb, hv, hg, label, keyPrefix, rateLimitPolicies, Identity.kind, Identity.text]
      | some u => simp [Option.filter, hb, hv, hu, label, keyPrefix, rateLimitPolicies, Identity.kind, Identity.text]

theorem policyKeyGenerator_eq (h : name ≠ .global) :
    policyKeyGenerator (rateLimitPolicies config name) req =
      bound (label config name (identity config verifyToken name req)) := by
  have ⟨hi, hp, _⟩ := ofString_labels
  rw [policyKeyGenerator, identity, if_neg h]
  cases (rateLimitPolicies config name).keyBy with
  | ip => simp [ipKey, hi, label, address, Identity.kind, Identity.text, keyPrefix]
  | userOrIp =>
    simp only [userOrIpKey]
    cases hu : req.user.map fun user => user.stellarPublicKey.getD user.id with
    | none => simp [hi, label, address, Identity.kind, Identity.text, keyPrefix]
    | some userKey =>
      cases userKey with
      | nil => simp [Option.filter, hi, label, address, Identity.kind, Identity.text, keyPrefix]
      | cons u userKey => simp [Option.filter, hp, label, Identity.kind, Identity.text, keyPrefix, h]

theorem key_eq (a : Arrival) : a.key config verifyToken =
    bound (label config a.policy (a.bucket config verifyToken).2) := by
  rw [Arrival.key, keyGenerator]
  split
  case isTrue h  => rw [globalRateLimitKey_eq config, Arrival.bucket, h]
  case isFalse h => rw [policyKeyGenerator_eq h, bound_bound, Arrival.bucket]

section Parsing

variable {α : Type} [DecidableEq α] {p p' s s' : List α} {c : α} {n : Nat}

omit [DecidableEq α] in
theorem take_append_cons (h : p.length < n) :
    (p ++ c :: s).take n = p ++ c :: s.take (n - p.length - 1) := by
  have ⟨k, hk⟩ : ∃ k, n - p.length = k + 1 := ⟨n - p.length - 1, by omega⟩
  rw [List.take_append, List.take_of_length_le h.le, hk, List.take_succ_cons, Nat.add_sub_cancel]

theorem eq_of_append_cons (hp : c ∉ p) (hp' : c ∉ p') (he : p ++ c :: s = p' ++ c :: s') : p = p' ∧ s = s' := by
  have ht {p s : List α} (hp : c ∉ p) : (p ++ c :: s).takeWhile (· ≠ c) = p := by
    rw [List.takeWhile_append_of_pos fun a ha => by simpa using fun h : a = c => hp (h ▸ ha)]
    simp
  have h : p = p' := by rw [← ht hp (s := s), he, ht hp']
  subst h
  exact ⟨rfl, (List.cons.inj <| List.append_cancel_left he).2⟩

-- The part in front of the first separator is not lost where a text is cut thereafter.
theorem eq_of_take_append_cons (hp : c ∉ p) (hp' : c ∉ p') (h : p.length < n) (h' : p'.length < n)
    (he : (p ++ c :: s).take n = (p' ++ c :: s').take n) :
    p = p' ∧ s.take (n - p.length - 1) = s'.take (n - p.length - 1) := by
  rw [take_append_cons h, take_append_cons h'] at he
  have ⟨hp, hs⟩ := eq_of_append_cons hp hp' he
  exact ⟨hp, hp ▸ hs⟩

end Parsing

theorem kind_facts (i : Identity) (name : RateLimitPolicyName) :
    0x3A ∉ JsString.ofString (i.kind name) ∧ (JsString.ofString (i.kind name)).length ≤ 10 := by
  cases i <;> simp only [Identity.kind] <;> first | split | skip
  all_goals decide

theorem isUser_eq_of_kind {i i' : Identity} (h : JsString.ofString (i.kind name) = JsString.ofString (i'.kind name)) :
    i.isUser = i'.isUser := by
  have hk : (if name = .global then "user" else "public-key") ≠ "ip" := by
    split <;> decide
  cases i with
  | user => cases i' with
    | user => rfl
    | ip   => exact absurd (JsString.ofString_injective h) hk
  | ip => cases i' with
    | user => exact absurd (JsString.ofString_injective h).symm hk
    | ip   => rfl

-- Different policies or kinds of identities do not share a key, and neither do identities that are not cut off.
theorem eq_of_bound_label {i i' : Identity} (h : bound (label config name i) = bound (label config name' i')) :
    name = name' ∧ i.isUser = i'.isUser ∧
    ((label config name i).length ≤ maxKeyLength → (label config name' i').length ≤ maxKeyLength → i = i') := by
  have ⟨hn, hl⟩ := colon_not_mem_keyPrefix config name
  have ⟨hn', hl'⟩ := colon_not_mem_keyPrefix config name'
  have ⟨hk, hs⟩ := eq_of_take_append_cons hn hn' (n := maxKeyLength) (by simp only [maxKeyLength]; omega)
    (by simp only [maxKeyLength]; omega) h
  cases keyPrefix_inj hk
  have ⟨hc, hi⟩ := kind_facts i name
  have ⟨hc', hi'⟩ := kind_facts i' name
  have ⟨hk, hs⟩ := eq_of_take_append_cons hc hc' (by simp only [maxKeyLength]; omega)
    (by simp only [maxKeyLength]; omega) hs
  have hu := isUser_eq_of_kind hk
  refine ⟨rfl, hu, fun ht ht' => ?_⟩
  simp only [label, List.length_append, List.length_cons] at ht ht'
  rw [List.take_of_length_le (by omega), List.take_of_length_le (by rw [hk]; omega)] at hs
  cases i <;> cases i' <;> simp_all [Identity.text, Identity.isUser]

-- The counting of one key, in terms of windows

def Row.window (row : Row) : FixedWindow.Window :=
  ⟨row.count, row.resetAt⟩

theorem window_upsert (now : Int) (length : Nat) (row : Option Row) :
    (upsert now (now + length) row).window = FixedWindow.hit length now (row.map Row.window) := by
  cases row with
  | none => rfl
  | some row =>
    simp only [upsert, Row.window, FixedWindow.hit, Option.map_some]
    split <;> rfl

def answer (a : Arrival) (w : FixedWindow.Window) : Arrival × Option IncrResult :=
  (a, if a.fate = .answered then some ⟨w.count, max 0 (w.resetAt - a.now)⟩ else none)

section

variable (config : Config) (verifyToken : JsString → Option AuthUser)

def counts (key : JsString) (a : Arrival) : Bool :=
  a.key config verifyToken = key ∧ a.fate ≠ .failed

def readings (key : JsString) (arrivals : List Arrival) : List Int :=
  (arrivals.filter (counts config verifyToken key)).map (·.now)

end

variable {key : JsString} {arrivals : List Arrival} {a : Arrival}

theorem serve_other {rows : PrismaRateLimitStore.Rows} (h : ¬counts config verifyToken key a) :
    (serve config verifyToken rows a).2.get? key = rows.get? key := by
  simp only [counts, decide_eq_true_eq, not_and, not_not] at h
  rcases a with ⟨policy, req, now, fate⟩
  by_cases hk : Arrival.key config verifyToken ⟨policy, req, now, fate⟩ = key
  case pos => cases h hk; rfl
  case neg =>
    cases fate with
    | failed     => rfl
    | answered   => exact OrderedMap.get?_set_ne _ hk
    | unanswered => exact OrderedMap.get?_set_ne _ hk

theorem serve_same (rows : PrismaRateLimitStore.Rows) (h : counts config verifyToken key a) :
    let w := FixedWindow.hit (timeWindow config a.policy) a.now ((rows.get? key).map Row.window)
    (a, (serve config verifyToken rows a).1) = answer a w ∧
      ((serve config verifyToken rows a).2.get? key).map Row.window = some w := by
  obtain ⟨hk, hf⟩ := of_decide_eq_true h
  subst hk
  rcases a with ⟨policy, req, now, fate⟩
  have hw := window_upsert now (timeWindow config policy)
    (rows.get? (Arrival.key config verifyToken ⟨policy, req, now, fate⟩))
  cases fate with
  | failed     => contradiction
  | answered   =>
    exact ⟨by simp only [answer, ← hw]; rfl, (congrArg _ <| OrderedMap.get?_set_self ..).trans (congrArg some hw)⟩
  | unanswered => exact ⟨rfl, (congrArg _ <| OrderedMap.get?_set_self ..).trans (congrArg some hw)⟩

theorem run_append : run config verifyToken (arrivals ++ [a]) =
    ((run config verifyToken arrivals).1 ++ [(a, (serve config verifyToken (run config verifyToken arrivals).2 a).1)],
      (serve config verifyToken (run config verifyToken arrivals).2 a).2) := by
  simp [run]

-- The requests of a key are counted as if there were no others.
theorem run_key {length : Nat}
    (h : ∀ a ∈ arrivals, a.key config verifyToken = key → timeWindow config a.policy = length) :
    ((run config verifyToken arrivals).1.filter (counts config verifyToken key ·.1) =
      (arrivals.filter <| counts config verifyToken key).zipWith answer
        (FixedWindow.track length <| readings config verifyToken key arrivals).1) ∧
    ((run config verifyToken arrivals).2.get? key).map Row.window =
      (FixedWindow.track length <| readings config verifyToken key arrivals).2 := by
  induction arrivals using List.reverseRecOn with
  | nil => exact ⟨rfl, rfl⟩
  | append_singleton arrivals a hi =>
    have ⟨hi, hr⟩ := hi fun b hb => h b (List.mem_append_left _ hb)
    rw [run_append]
    by_cases hc : counts config verifyToken key a
    case neg =>
      have hl : readings config verifyToken key (arrivals ++ [a]) = readings config verifyToken key arrivals := by
        simp [readings, hc]
      rw [hl, ← hr]
      exact ⟨by simp [hc, hi], congrArg _ <| serve_other hc⟩
    case pos =>
      have hl : readings config verifyToken key (arrivals ++ [a]) =
          readings config verifyToken key arrivals ++ [a.now] := by
        simp [readings, hc]
      have hw := h a (by simp) (of_decide_eq_true hc).1
      have ⟨ht, hs⟩ := serve_same (run config verifyToken arrivals).2 hc
      rw [hw, hr] at ht hs
      rw [hl, FixedWindow.track_append]
      refine ⟨?_, hs⟩
      rw [List.filter_append, List.filter_append, hi, List.filter_singleton, List.filter_singleton]
      simp only [hc, cond_true]
      rw [ht, List.zipWith_append]
      · rfl
      · rw [FixedWindow.length_track, readings, List.length_map]

end Mergepay.Limits
