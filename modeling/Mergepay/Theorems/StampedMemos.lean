import Mergepay.Stellar.Payments
import Mergepay.Theorems.LedgerChecks
import Mergepay.Treasury.Lifecycle

namespace Mergepay

open Concurrency Money Stellar Text

namespace Stellar

-- The records that payments are made for

inductive PaymentRecord
  | settlement (shortCode : String)
  | treasuryTransaction (shortCode : String)
  | treasuryProposal (memo : Option String) (runes : String)

-- The memo of a proposal, which has its prefix already.
def proposalMemo (memo : Option String) (runes : String) : String :=
  memo.getD ("MP:" ++ runes)

-- What is handed over to the construction of the envelope.
def PaymentRecord.memoCode : PaymentRecord → String
  | settlement shortCode | treasuryTransaction shortCode => shortCode
  | treasuryProposal memo runes                          => proposalMemo memo runes

-- The code by which a payment is to be found again.
def PaymentRecord.reference : PaymentRecord → String
  | settlement shortCode | treasuryTransaction shortCode => shortCode
  | treasuryProposal memo runes                          => .ofList ((proposalMemo memo runes).toList.drop 3)

def isMpMemo (value : String) : Bool :=
  ['M', 'P', ':'].isPrefixOf value.toList && Mergepay.Memo.byteLength value.toList ≤ 28

-- A proposal carries its prefix twice, so that its memo is no reference.
theorem memoText_prefixed {l : List Char} (code : String) (h : code.toList = 'M' :: 'P' :: ':' :: l) :
    ∃ l', (memoText code).toList = 'M' :: 'P' :: ':' :: 'M' :: 'P' :: ':' :: l' := by
  have hu : Utf16.encode ("MP:" ++ code).toList = 0x4D :: 0x50 :: 0x3A :: 0x4D :: 0x50 :: 0x3A :: Utf16.encode l := by
    have ht : ("MP:" ++ code).toList = 'M' :: 'P' :: ':' :: 'M' :: 'P' :: ':' :: l := by simp [h]
    rw [ht]
    rfl
  have hd (l : List Nat) : Utf16.decode (0x4D :: 0x50 :: 0x3A :: 0x4D :: 0x50 :: 0x3A :: l) =
      'M' :: 'P' :: ':' :: 'M' :: 'P' :: ':' :: Utf16.decode l := by
    rw [Utf16.decode_cons (by decide), Utf16.decode_cons (by decide), Utf16.decode_cons (by decide),
      Utf16.decode_cons (by decide), Utf16.decode_cons (by decide), Utf16.decode_cons (by decide)]
  simp only [memoText, hu, String.toList_ofList]
  split
  case isTrue  => exact ⟨_, hd _⟩
  case isFalse => exact ⟨_, hd _⟩

theorem parseMemo_prefixed {t : String} {l : List Char} (h : t.toList = 'M' :: 'P' :: ':' :: 'M' :: 'P' :: ':' :: l) :
    ∃ m, Mergepay.Memo.parseMemo t = .error m := by
  have hv : Mergepay.Memo.isValidMemoCode ('M' :: 'P' :: ':' :: l) = false := by
    have hc : ':' ∉ Mergepay.Memo.alphabet := by decide
    simp [Mergepay.Memo.isValidMemoCode, hc]
  simp only [Mergepay.Memo.parseMemo, h, hv, Bool.false_eq_true, not_false_eq_true, if_true]
  repeat' split
  all_goals exact ⟨_, rfl⟩

end Stellar

structure GeneratedRunes (runes : String) : Prop where
  chars  : ∀ c ∈ runes.toList, c ∈ Memo.alphabet
  length : runes.toList.length = 6

-- Codes are generated, and the memos of callers have passed the schema.
def Stellar.PaymentRecord.Created : PaymentRecord → Prop
  | settlement shortCode | treasuryTransaction shortCode => GeneratedCode shortCode
  | treasuryProposal memo runes                          => GeneratedRunes runes ∧ ∀ m ∈ memo, isMpMemo m = true

def Stellar.PaymentRecord.IsProposal : PaymentRecord → Prop
  | settlement _ | treasuryTransaction _ => False
  | treasuryProposal _ _                 => True

-- The memo fits, and leads back to the record.
structure Attributable (r : PaymentRecord) (memo : List UInt8) : Prop where
  fits   : memo.length ≤ 28
  parsed : Memo.parseMemo (.ofList (Utf8.decode memo)) = .ok r.reference

section

variable {r : PaymentRecord} {code runes : String} {memo : Option String}

theorem decode_memo (text : String) : String.ofList (Utf8.decode (Utf8.encode text.toList)) = text := by
  rw [Utf8.decode_encode, String.ofList_toList]

-- A single code is stamped with a single prefix.
theorem parseMemo_stamped (h : GeneratedCode code) : Memo.parseMemo (Stellar.memoText code) = .ok code := by
  rw [h.memoText]
  exact h.parseMemo

theorem toList_proposalMemo (h : ∀ m ∈ memo, isMpMemo m = true) :
    ∃ l, (proposalMemo memo runes).toList = 'M' :: 'P' :: ':' :: l := by
  cases memo with
  | none   => exact ⟨runes.toList, by simp [proposalMemo]⟩
  | some m =>
    have hm := h m rfl
    simp only [isMpMemo, Bool.and_eq_true, List.isPrefixOf_iff_prefix] at hm
    have ⟨l, hl⟩ := hm.1
    exact ⟨l, hl.symm⟩

-- The service itself asks for a code if there is no memo.
theorem answered_memoText (i : Treasury.LifecycleRequest)
    (answers : (a : Database.Step Treasury.LifecycleRequest Treasury.LifecycleAction Treasury.LifecycleAction.Answer
      Failure) → Except Failure a.Answer)
    (h : answers (.act i [] .shortCode) = .ok runes) :
    (Treasury.memoText i memo).answered answers = .ok (proposalMemo memo runes) := by
  cases memo with
  | some m => rfl
  | none   =>
    simp only [Treasury.memoText, Treasury.query, Prog.perform, Prog.bind_eq, Prog.bind, Prog.answered, h]
    rfl

end

theorem stamped_memos (R : Registry) (readAmount : String → Except Failure Int) (now : Time) (r : PaymentRecord)
    (params : PaymentParams) (tx : Transaction) (hr : r.Created) (hp : params.memoCode = r.memoCode)
    (h : buildPayment R readAmount now params = .ok tx) :
    ∃ memo, tx.memo = .text memo ∧ (Attributable r memo ↔ ¬r.IsProposal) ∧
      ((∃ code, Memo.parseMemo (.ofList (Utf8.decode memo)) = .ok code) ↔ ¬r.IsProposal) := by
  have ⟨hl, hm⟩ := ofText_eq_ok.mp (buildPayment_memo h)
  rw [hp] at hl hm
  refine ⟨_, hm, ?_⟩
  have hd := decode_memo (Stellar.memoText r.memoCode)
  cases r with
  | settlement code | treasuryTransaction code =>
    have hc := parseMemo_stamped hr
    exact ⟨iff_of_true ⟨hl, by rw [hd]; exact hc⟩ id, iff_of_true ⟨code, by rw [hd]; exact hc⟩ id⟩
  | treasuryProposal memo runes =>
    have hm : ∃ l, (proposalMemo memo runes).toList = 'M' :: 'P' :: ':' :: l := toList_proposalMemo hr.2
    have ⟨l, ht⟩ := hm
    have ⟨l', ht⟩ := memoText_prefixed _ ht
    have ⟨m, he⟩ := parseMemo_prefixed ht
    have he : Memo.parseMemo (.ofList (Utf8.decode (Utf8.encode (Stellar.memoText
        (PaymentRecord.treasuryProposal memo runes).memoCode).toList))) = .error m := by
      rw [hd]
      exact he
    constructor
    · exact iff_of_false (fun ha => by cases he.symm.trans ha.parsed) (not_not.mpr trivial)
    · exact iff_of_false (fun ⟨_, ha⟩ => by cases he.symm.trans ha) (not_not.mpr trivial)

def sampleParams (memoCode : String) : PaymentParams where
  sourcePublicKey := sampleIssuer
  sourceSequence  := "41"
  destination     := sampleIssuer
  asset           := ⟨"XLM", none⟩
  amount          := "5"
  memoCode        := memoCode

def sampleEnvelopeOf (memo : String) : Transaction where
  source     := sampleIssuer
  sequence   := "42"
  fee        := 200
  timeBounds := some ⟨0, 300⟩
  memo       := .text (Utf8.encode memo.toList)
  operations := [.payment none sampleIssuer .native 50000000]
  signatures := []

-- The memo that is generated for a proposal gets a second prefix.
theorem proposal_unattributable :
    ¬∀ (R : Registry) (readAmount : String → Except Failure Int) (now : Time) (r : PaymentRecord)
      (params : PaymentParams) (tx : Transaction), r.Created → params.memoCode = r.memoCode →
      buildPayment R readAmount now params = .ok tx → ∃ memo, tx.memo = .text memo ∧ Attributable r memo := by
  intro h
  have hb : buildPayment sampleRegistry toStroops 0 (sampleParams "MP:ABCDEF") =
      .ok (sampleEnvelopeOf "MP:MP:ABCDEF") := by
    decide +kernel
  have hr : PaymentRecord.Created (.treasuryProposal none "ABCDEF") :=
    ⟨⟨List.forall_iff_forall_mem.mp (by decide), by decide⟩, nofun⟩
  have ⟨memo, hm, ha⟩ := h _ _ _ (.treasuryProposal none "ABCDEF") _ _ hr rfl hb
  obtain rfl : Utf8.encode "MP:MP:ABCDEF".toList = memo := Stellar.Memo.text.inj hm
  exact absurd ha.parsed (by decide +kernel)

theorem stamped_memos_sample :
    (PaymentRecord.Created (.settlement "ABCDEFGHJK") ∧
      buildPayment sampleRegistry toStroops 0 (sampleParams "ABCDEFGHJK") =
        .ok (sampleEnvelopeOf "MP:ABCDEFGHJK")) ∧
    ∃ memo, (sampleEnvelopeOf "MP:ABCDEFGHJK").memo = .text memo ∧
      Attributable (.settlement "ABCDEFGHJK") memo :=
  have hr : PaymentRecord.Created (.settlement "ABCDEFGHJK") :=
    ⟨List.forall_iff_forall_mem.mp (by decide), by decide⟩
  have hb : buildPayment sampleRegistry toStroops 0 (sampleParams "ABCDEFGHJK") =
      .ok (sampleEnvelopeOf "MP:ABCDEFGHJK") := by
    decide +kernel
  have ⟨memo, hm, ha, _⟩ := stamped_memos _ _ _ (.settlement "ABCDEFGHJK") _ _ hr rfl hb
  ⟨⟨hr, hb⟩, memo, hm, ha.mpr id⟩

end Mergepay
