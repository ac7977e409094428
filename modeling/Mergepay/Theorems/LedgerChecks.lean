import Mergepay.Settlement.Reconciliation
import Mergepay.Settlement.Runs
import Mergepay.Stellar.Intent

namespace Mergepay

open Concurrency Money Stellar Text

-- What the ledger reports for an envelope that carries a single payment and a text memo.

def ledgerPayment (destination : String) (asset : Asset) (amount : Int) : PaymentOperation := {
  destination
  amount      := amountText amount
  assetType   := if asset = .native then "native"
    else if asset.code.length ≤ 4 then "credit_alphanum4" else "credit_alphanum12"
  assetCode   := if asset = .native then none else some asset.code
  assetIssuer := if asset = .native then none else asset.issuer
}

structure Reports (tx : Transaction) (record : TransactionRecord) : Prop where
  memo       : ∀ value, tx.memo = .text value →
    record.memoType = some "text" ∧ record.memo = some (.ofList (Utf8.decode value))
  operations : ∀ source destination asset amount,
    tx.operations = [.payment source destination asset amount] →
    record.operations = [ledgerPayment destination asset amount]

-- The codes of settlements are drawn from the alphabet of the memos.
structure GeneratedCode (code : String) : Prop where
  chars  : ∀ c ∈ code.toList, c ∈ Memo.alphabet
  length : code.toList.length = 10

-- The row that a signed envelope is validated against.
def World.intentRecord (w : World) (s : Settlement) : SettlementIntentRecord := {
  shortCode   := s.shortCode
  amount      := columnText s.amount
  assetCode   := s.assetCode
  assetIssuer := s.assetIssuer
  expiresAt   := s.expiresAt
  source      := w.publicKey s.fromUserId
  destination := w.publicKey s.toUserId
}

-- The answers of a world in which nothing fails.
def Deps.answers (D : Deps) (w : World) (a : Act) : Except Failure a.Res :=
  match D.exec a .ok w with
  | some (r, _) => r
  | none        => .error <| .plain "No answer"

-- The checks of reconciliation that concern the transaction. The memo they find is `memo`.
def LedgerAccepts (D : Deps) (w : World) (s : Settlement) (hash memo : String) : Prop :=
  ∃ expected t op, Memo.buildMemo s.shortCode = .ok expected ∧
    (verifyTransactionMemo hash expected).answered (D.answers w) = .ok memo ∧
    w.transaction hash = some t ∧ t.record.operations.find? (·.type = "payment") = some op ∧
    verifyPaymentOperation op (w.publicKey s.toUserId) (columnText s.amount) s.assetCode s.assetIssuer =
      .ok ()

-- The asset columns are spelled as in the registry.
def Settlement.Canonical (R : Registry) (s : Settlement) : Prop :=
  ∃ v, R.validateAsset s.assetCode s.assetIssuer = .ok (.ok v) ∧ v.code = s.assetCode ∧
    v.issuer = s.assetIssuer

variable {D : Deps} {w : World} {s : Settlement}

section Verification

theorem answered_verifyTransactionMemo :
    (verifyTransactionMemo k expected).answered (D.answers w) = .ok memo ↔
    ∃ code t, Memo.parseMemo expected = .ok code ∧ w.transaction k = some t ∧ t.successful = true ∧
      Memo.validatePaymentMemo t.record.memoType t.record.memo code = .ok memo := by
  have hw : D.answers w (.getTransactionFromHorizon k) = .ok (w.transaction k) := rfl
  cases hp : Memo.parseMemo expected with
  | error m => simp [verifyTransactionMemo, hp, Prog.answered]
  | ok code =>
    simp only [verifyTransactionMemo, hp, act, Prog.perform, Prog.bind_eq, Prog.bind, Prog.answered, hw]
    cases ht : w.transaction k with
    | none   => simp [Prog.answered]
    | some t =>
      cases hs : t.successful <;> cases hv : Memo.validatePaymentMemo t.record.memoType t.record.memo code
      all_goals simp [Prog.answered, hs, hv]

-- The part of the verification that follows the memo.
def verifyLanded (s : Settlement) (hash : String) : M Unit := do
  let payments ← act (.getTransactionPayments hash)
  let some op := payments.find? (·.type = "payment")
    | throw <| .badRequest "settlement_verification_failed"
        "No payment operation found in transaction"
  let destination ← act (.publicKey s.toUserId)
  lift <| verifyPaymentOperation op destination (columnText s.amount) s.assetCode s.assetIssuer

theorem answered_verifyLanded : (verifyLanded s k).answered (D.answers w) = .ok () ↔
    ∃ t op, w.transaction k = some t ∧ t.record.operations.find? (·.type = "payment") = some op ∧
      verifyPaymentOperation op (w.publicKey s.toUserId) (columnText s.amount) s.assetCode s.assetIssuer =
        .ok () := by
  have hw : D.answers w (.publicKey s.toUserId) = .ok (w.publicKey s.toUserId) := rfl
  simp only [verifyLanded, act, Prog.perform, Prog.bind_eq, Prog.bind, Prog.answered]
  cases ht : w.transaction k with
  | none =>
    have hp : D.answers w (.getTransactionPayments k) = .error (.plain "No answer") := by
      simp [Deps.answers, Deps.exec, ht]
    simp [hp, Prog.answered]
  | some t =>
    have hp : D.answers w (.getTransactionPayments k) =
        .ok (t.record.operations.filter (·.type = "payment")) := by
      simp [Deps.answers, Deps.exec, ht]
    have hf : (t.record.operations.filter (·.type = "payment")).find? (·.type = "payment") =
        t.record.operations.find? (·.type = "payment") := by
      simp [List.find?_filter]
    simp only [hp, Prog.bind, hf]
    cases ho : t.record.operations.find? (·.type = "payment") with
    | none    => simp [Prog.answered, ho]
    | some op =>
      cases hv : verifyPaymentOperation op (w.publicKey s.toUserId) (columnText s.amount) s.assetCode
          s.assetIssuer
      all_goals simp [Prog.answered, hw, ho, hv, lift]

-- Reconciliation accepts a transaction by these checks, provided that a linked expense is still open.
theorem answered_verifyPayment : (verifyPayment s k).answered (D.answers w) = .ok () ↔
    ∃ memo, LedgerAccepts D w s k memo ∧ ∀ e ∈ s.expenseId,
      (validateMemoAgainstActiveExpense memo s.shortCode e).answered (D.answers w) = .ok (.ok ()) := by
  cases hb : Memo.buildMemo s.shortCode with
  | error m => simp [verifyPayment, LedgerAccepts, hb, Prog.answered]
  | ok expected =>
    have hl memo : LedgerAccepts D w s k memo ↔
        (verifyTransactionMemo k expected).answered (D.answers w) = .ok memo ∧
        (verifyLanded s k).answered (D.answers w) = .ok () := by
      simp [LedgerAccepts, hb, answered_verifyLanded]
    simp only [verifyPayment, hb, hl, Prog.bind_eq, Prog.answered_bind _ (verifyTransactionMemo k expected),
      Except.bind_eq_ok, and_assoc]
    refine exists_congr fun memo => and_congr_right fun _ => ?_
    cases he : s.expenseId with
    | none =>
      change (verifyLanded s k).answered (D.answers w) = .ok () ↔ _
      simp
    | some e =>
      simp only [Prog.answered_bind _ (validateMemoAgainstActiveExpense memo s.shortCode e),
        Except.bind_eq_ok,
        Option.mem_some_iff, forall_eq']
      constructor
      case mp =>
        intro ⟨r, hr, h⟩
        cases r with
        | error m => exact absurd h (by simp [Prog.answered])
        | ok      => exact ⟨h, hr⟩
      case mpr => exact fun ⟨h, hr⟩ => ⟨_, hr, h⟩

end Verification

section Memo

theorem GeneratedCode.isMemoCode (h : GeneratedCode code) : IsMemoCode code := by
  have ha : ∀ c ∈ Memo.alphabet, c.isUpper = true ∨ c.isDigit = true :=
    List.forall_iff_forall_mem.mp (by decide)
  exact { chars := fun c hc => ha c (h.chars c hc), length := by simp [h.length] }

theorem GeneratedCode.memoText (h : GeneratedCode code) : memoText code = "MP:" ++ code := by
  rw [← String.toList_inj, toList_memoText h.isMemoCode, String.toList_append]
  rfl

theorem GeneratedCode.toList_ne_nil (h : GeneratedCode code) : code.toList ≠ [] := by
  intro he
  have := h.length
  simp [he] at this

theorem GeneratedCode.isValidMemoCode (h : GeneratedCode code) :
    Memo.isValidMemoCode code.toList = true := by
  simp only [Memo.isValidMemoCode, Bool.and_eq_true, decide_eq_true_eq, List.all_eq_true]
  exact ⟨h.toList_ne_nil, h.chars⟩

theorem GeneratedCode.sum_map (h : GeneratedCode code) {f : Char → Nat}
    (hf : ∀ c ∈ Memo.alphabet, f c = 1) : (code.toList.map f).sum = 10 := by
  have hs : code.toList.map f = List.replicate 10 1 := by
    rw [← h.length]
    exact List.map_eq_replicate_iff.mpr fun c hc => hf c (h.chars c hc)
  rw [hs]
  rfl

-- All characters of a code take a single byte.
theorem GeneratedCode.byteLength (h : GeneratedCode code) :
    Memo.byteLength ('M' :: 'P' :: ':' :: code.toList) = 13 := by
  have hs : (code.toList.map Char.utf8Size).sum = 10 :=
    h.sum_map (List.forall_iff_forall_mem.mp (by decide +kernel))
  simp only [Memo.byteLength, List.map_cons, List.sum_cons, hs]
  rfl

theorem GeneratedCode.length_memo (h : GeneratedCode code) :
    Memo.length ('M' :: 'P' :: ':' :: code.toList) = 13 := by
  have hs : (code.toList.map fun c => if c.toNat < 0x10000 then 1 else 2).sum = 10 :=
    h.sum_map (List.forall_iff_forall_mem.mp (by decide +kernel))
  simp only [Memo.length, List.map_cons, List.sum_cons, hs]
  rfl

theorem GeneratedCode.buildMemo (h : GeneratedCode code) : Memo.buildMemo code = .ok ("MP:" ++ code) := by
  simp [Memo.buildMemo, h.toList_ne_nil, h.isValidMemoCode, h.byteLength, Memo.maxMemoBytes]

theorem GeneratedCode.parseMemo (h : GeneratedCode code) : Memo.parseMemo ("MP:" ++ code) = .ok code := by
  simp [Memo.parseMemo, h.length_memo, h.byteLength, h.toList_ne_nil, h.isValidMemoCode, Memo.maxMemoBytes]

theorem GeneratedCode.validatePaymentMemo (h : GeneratedCode code) :
    Memo.validatePaymentMemo (some "text") (some ("MP:" ++ code)) code = .ok ("MP:" ++ code) := by
  simp [Memo.validatePaymentMemo, h.parseMemo]

end Memo

-- The comparison of a reported payment with the columns of a row. All assets of the registry but the
-- native one have an issuer column and a code of four letters.
theorem verifyPaymentOperation_ledgerPayment {R : Registry} (hv : R.validateAsset c i = .ok (.ok v))
    (ha : Stellar.normalizeAmount (amountText n) = Stellar.normalizeAmount t) :
    verifyPaymentOperation (ledgerPayment d ⟨v.code, v.issuer⟩ n) d t code issuer = .ok () ↔
    v.code = code ∧ v.issuer = issuer := by
  have ha : normalizeHorizonAmount (amountText n) = normalizeHorizonAmount t := ha
  have ⟨a, hm, hv⟩ := Registry.mem_of_validateAsset hv
  simp only [Registry.supportedAssets, List.mem_cons, List.not_mem_nil, or_false] at hm
  cases hm with
  | inl hm =>
    subst hm; subst hv
    simp only [verifyPaymentOperation, ledgerPayment, Asset.native, ha]
    by_cases hx : code = "XLM" ∧ issuer = none
    case pos => simp [hx]
    case neg =>
      simp [hx, settlementMismatch]
      intro h h'
      exact hx ⟨h.symm, h'.symm⟩
  | inr hm =>
    subst hm; subst hv
    have hl : "USDC".length ≤ 4 := by decide
    have hn : (⟨"USDC", present R.stableAssetIssuer⟩ : Asset) ≠ .native := by simp [Asset.native]
    simp only [verifyPaymentOperation, ledgerPayment, hn, ha, settlementMismatch, if_false]
    by_cases hx : code = "XLM" ∧ issuer = none
    case pos => simp [hx, hl]
    case neg =>
      by_cases hc : "USDC" = code <;> by_cases hi : present R.stableAssetIssuer = issuer
      all_goals simp [hx, hc, hi]

-- An envelope that was accepted before its submission is accepted again on the ledger, if and only if
-- the columns of the row are spelled as in the registry.
theorem ledger_checks_agree {S : Sdk} (hc : GeneratedCode s.shortCode)
    (hv : Stellar.validateSettlementXdr D.toRegistry S xdr (w.intentRecord s) now = .ok v)
    (ht : w.transaction v.hash = some t) (hs : t.successful = true) (hr : Reports v.tx t.record) :
    (∃ memo, LedgerAccepts D w s v.hash memo) ↔ s.Canonical D.toRegistry := by
  rw [Stellar.validateSettlementXdr, validateSignedXdr, Except.bind_eq_ok] at hv
  have ⟨tx, _, hv⟩ := hv
  have ⟨hp, hx⟩ := Except.unit_bind_eq_ok.mp hv
  have hx := Except.pure_eq_ok.mp hx
  subst hx
  have ⟨_, ⟨source, asset, amount, hp⟩, _⟩ := validatePaymentTx_ok.mp hp
  have ⟨a, ha, he⟩ := toAsset_ok hp.asset
  subst he
  have hm : t.record.memoType = some "text" ∧ t.record.memo = some ("MP:" ++ s.shortCode) := by
    have hx := memo_of_valueText hc.isMemoCode hp.memo
    have hd := hp.memo
    rw [hx] at hd
    have ⟨ht, hm⟩ := hr.memo _ hx
    exact ⟨ht, hm.trans <| congrArg some <| hd.trans hc.memoText⟩
  have ho := hr.operations _ _ _ _ hp.operations
  have hf : t.record.operations.find? (·.type = "payment") =
      some (ledgerPayment (w.publicKey s.toUserId) ⟨a.code, a.issuer⟩ amount) := by
    rw [ho]
    rfl
  have hl : (verifyTransactionMemo (S.hash tx) ("MP:" ++ s.shortCode)).answered (D.answers w) =
      .ok ("MP:" ++ s.shortCode) := by
    refine answered_verifyTransactionMemo.mpr ⟨s.shortCode, t, hc.parseMemo, ht, hs, ?_⟩
    rw [hm.1, hm.2, hc.validatePaymentMemo]
  constructor
  case mp =>
    intro ⟨memo, expected, t', op, _, _, ht', hf', hv⟩
    cases ht.symm.trans ht'
    cases hf.symm.trans hf'
    have ⟨hc, hi⟩ := (verifyPaymentOperation_ledgerPayment ha hp.amount).mp hv
    exact ⟨a, ha, hc, hi⟩
  case mpr =>
    intro ⟨a', ha', hc', hi'⟩
    have haa : a' = a := by
      cases ha.symm.trans ha'
      rfl
    subst haa
    exact ⟨"MP:" ++ s.shortCode, "MP:" ++ s.shortCode, t, _, hc.buildMemo, hl, ht, hf,
      (verifyPaymentOperation_ledgerPayment ha hp.amount).mpr ⟨hc', hi'⟩⟩

-- Bob pays ann two lumens, and the ledger applies the envelope.

def sampleEnvelope : Transaction := {
  source     := "GBOB"
  sequence   := "1"
  fee        := 100
  timeBounds := some ⟨0, 300⟩
  memo       := .text (asciiBytes "MP:AAAAAAAAAA")
  operations := [.payment none "GANN" .native 20000000]
  signatures := ["GBOB"]
}

def sampleLedgerRecord : TransactionRecord := {
  memoType   := some "text"
  memo       := some "MP:AAAAAAAAAA"
  operations := [ledgerPayment "GANN" .native 20000000]
}

def envelopeSdk : Sdk := {
  fromXDR x := if x = "envelope" then some (.transaction sampleEnvelope) else none
  hash _    := "hash"
  verify k _ s := k = s
}

def envelopeDeps : Deps := { sampleDeps with
  hashOf   := fun _ => "hash"
  recordOf := fun _ => sampleLedgerRecord
}

theorem sampleEnvelope_reports : Reports sampleEnvelope sampleLedgerRecord := by
  constructor
  case memo =>
    intro value h
    cases h
    decide
  case operations =>
    intro source destination asset amount h
    cases h
    rfl

-- Bob creates a settlement of his debt in an asset of his choice, and pays it.

def paying (code : String) : Schedule :=
  settling 0 { assetCode := some code } "AAAAAAAAAA" "n" ++ [.env (.apply "envelope" true)]

def paidSettlement (assetCode : String) : Settlement := {
  id             := "n"
  shortCode      := "AAAAAAAAAA"
  groupId        := "g"
  fromUserId     := "bob"
  toUserId       := "ann"
  amount         := 20000000
  assetCode
  assetIssuer    := none
  expiresAt      := some 300000
  expenseId      := some "e"
  expenseShareId := some "i"
  createdAt      := 0
  updatedAt      := 0
}

def paidWorld (assetCode : String) : World := { sampleWorld with
  shares      := [⟨"i", "e", "bob", 20000000, .settling⟩]
  settlements := [paidSettlement assetCode]
  ledger      := [⟨"hash", true, sampleLedgerRecord⟩]
  allocated   := ["n", "e", "i"]
}

theorem exists_run_paying (code : String) (h : (envelopeDeps.system.play (fun _ _ => True) (paying code)
    ⟨sampleWorld, []⟩).any (·.shared = paidWorld code) = true) :
    ∃ c, envelopeDeps.system.Run (fun _ _ => True) ⟨sampleWorld, []⟩ c ∧ c.shared = paidWorld code := by
  have ⟨c, r, h⟩ := System.exists_run_of_play _ h
  exact ⟨c, r, of_decide_eq_true h⟩

theorem ledger_checks_agree_sample :
    (∃ memo, LedgerAccepts envelopeDeps (paidWorld "XLM") (paidSettlement "XLM") "hash" memo) ↔
    (paidSettlement "XLM").Canonical envelopeDeps.toRegistry := by
  have hv : Stellar.validateSettlementXdr envelopeDeps.toRegistry envelopeSdk "envelope"
      ((paidWorld "XLM").intentRecord (paidSettlement "XLM")) 0 = .ok ⟨sampleEnvelope, "hash"⟩ := rfl
  exact ledger_checks_agree ⟨List.forall_iff_forall_mem.mp (by decide +kernel), rfl⟩ hv rfl rfl sampleEnvelope_reports

-- The payment of a settlement in "xlm" is found on the ledger, but not recognized.
theorem ledger_checks_disagree : ∃ c v t,
    envelopeDeps.system.Run (fun _ _ => True) ⟨sampleWorld, []⟩ c ∧
    c.shared.settlement "n" = some (paidSettlement "xlm") ∧
    Stellar.validateSettlementXdr envelopeDeps.toRegistry envelopeSdk "envelope"
      (c.shared.intentRecord (paidSettlement "xlm")) 0 = .ok v ∧
    c.shared.transaction v.hash = some t ∧ t.successful = true ∧ Reports v.tx t.record ∧
    ¬∃ memo, LedgerAccepts envelopeDeps c.shared (paidSettlement "xlm") v.hash memo := by
  have ⟨c, r, hc⟩ := exists_run_paying "xlm" (by decide +kernel)
  have hv : Stellar.validateSettlementXdr envelopeDeps.toRegistry envelopeSdk "envelope"
      ((paidWorld "xlm").intentRecord (paidSettlement "xlm")) 0 = .ok ⟨sampleEnvelope, "hash"⟩ := rfl
  have ht : (paidWorld "xlm").transaction "hash" = some ⟨"hash", true, sampleLedgerRecord⟩ := rfl
  refine ⟨c, _, _, r, hc ▸ rfl, hc ▸ hv, hc ▸ ht, rfl, sampleEnvelope_reports, ?_⟩
  rw [hc]
  intro ⟨memo, expected, t', op, _, _, ht', ho, h⟩
  cases ht.symm.trans ht'
  have ho' : sampleLedgerRecord.operations.find? (·.type = "payment") =
      some (ledgerPayment "GANN" .native 20000000) := rfl
  cases ho'.symm.trans ho
  have hn : (verifyPaymentOperation (ledgerPayment "GANN" .native 20000000)
      ((paidWorld "xlm").publicKey "ann") (columnText 20000000) "xlm" none).toBool = false := by
    decide +kernel
  exact absurd (Except.toBool_eq_true.mpr ⟨(), h⟩) (Bool.eq_false_iff.mp hn)

end Mergepay
