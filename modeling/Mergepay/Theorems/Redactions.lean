import Mergepay.Audit.Trail

namespace Mergepay.Audit

open Text Json

-- Whatever is reached through a redacted key is the mark, and has no parts.
def Hides (v : Json) : Prop :=
  ∀ p q k w, isRedacted k = true → v.find? (p ++ .property k :: q) = some w → q = [] ∧ w = auditRedacted

-- What sanitizing leaves as it is
def Sanitized (v : Json) : Prop :=
  sanitizeAuditMetadata v = v

theorem find?_auditRedacted {path : List Selector} (h : path ≠ []) : auditRedacted.find? path = none := by
  cases path with
  | nil         => exact absurd rfl h
  | cons s path => cases s <;> rfl

theorem Sanitized.hides {v : Json} (h : Sanitized v) : Hides v := by
  intro p q k w hk hw
  rw [← h] at hw
  exact find?_redact_hidden hk (fun _ => find?_auditRedacted) hw

theorem sanitized_sanitize (v : Json) : Sanitized (sanitizeAuditMetadata v) :=
  redact_redact v

-- Two values become the same if and only if they differ in nothing but the values of redacted keys. Once sanitized,
-- they stay as they are, and all of their other parts are still there.
theorem sanitized_exactly (v w : Json) :
    (sanitizeAuditMetadata v = sanitizeAuditMetadata w ↔ Alike isRedacted v w) ∧ Sanitized (sanitizeAuditMetadata v) ∧
    Hides (sanitizeAuditMetadata v) ∧
    ∀ path, (∀ k, .property k ∈ path → isRedacted k = false) →
      (sanitizeAuditMetadata v).find? path = (v.find? path).map sanitizeAuditMetadata :=
  ⟨redact_eq_iff, sanitized_sanitize v, (sanitized_sanitize v).hides, fun _ => find?_redact⟩

-- Two transactions that are to be signed leave the same trail.

def signing (xdr : String) : Record :=
  [(.ofString "memo", .string (.ofString "rent")), (.ofString "signedXdr", .string (.ofString xdr))]

theorem signing_alike (xdr xdr' : String) : Alike isRedacted (.object (signing xdr)) (.object (signing xdr')) := by
  have hk : isRedacted (.ofString "signedXdr") = true := by decide +kernel
  simp [signing, Alike, AlikeProperties, hk]

theorem sanitized_signing :
    sanitizeAuditMetadata (.object (signing "AAAA")) = sanitizeAuditMetadata (.object (signing "BBBB")) :=
  (sanitized_exactly _ _).1.mpr (signing_alike "AAAA" "BBBB")

theorem sanitized_optional {record : Record} {key : String} (h : Sanitized (.object record))
    (hk : isRedacted (.ofString key) = false) (value : Option String) :
    Sanitized (.object (record.optional key value)) := by
  cases value with
  | none       => exact h
  | some value =>
    have h : redactProperties isRedacted auditRedacted record = record := object.inj h
    refine congrArg object ?_
    simp only [Record.optional, Record.text, Option.elim, redactProperties_set, h, hk]
    rfl

theorem sanitized_auditMetadata (params : AuditParams) : Sanitized (.object (auditMetadata params)) := by
  have h : Sanitized (.object (redactProperties isRedacted auditRedacted (params.metadata.getD []))) :=
    congrArg object <| redactProperties_redactProperties _
  refine sanitized_optional (sanitized_optional (sanitized_optional h ?_ _) ?_ _) ?_ _
  all_goals decide +kernel

theorem sanitized_mutationMetadata (options : MutationOptions) (req : FinishedRequest) :
    Sanitized (.object (mutationMetadata options req)) := by
  have hk : ∀ key ∈ ["method", "route", "statusCode", "timestamp", "payload"], isRedacted (.ofString key) = false := by
    decide +kernel
  refine congrArg object ?_
  simp only [mutationMetadata, redactProperties_eq, List.map_append, List.map_cons, List.map_nil, redactProperty,
    hk "method" (by simp), hk "route" (by simp), hk "statusCode" (by simp), hk "timestamp" (by simp)]
  refine congrArg₂ (· ++ ·) rfl ?_
  rcases req.body.filter fun body => options.recordBody ∧ recordedBody body with _ | body
  case none => rfl
  case some =>
    have hb : redact isRedacted auditRedacted (sanitizeAuditMetadata body) = sanitizeAuditMetadata body :=
      sanitized_sanitize body
    simp [redactProperty, hk "payload" (by simp), hb]

-- The line shows what the row does, and neither of them shows the value of a redacted key. No part of a trail depends
-- on such values.
structure Trail.Discreet (trail : Trail) : Prop where
  mirrors : ∀ row ∈ trail.row, trail.line.metadata = .object row.metadata
  row     : ∀ row ∈ trail.row, Hides (.object row.metadata)
  line    : Hides trail.line.metadata

theorem audit_discreet (params : AuditParams) (written : Except String Unit) :
    (audit params written).Discreet ∧
    ∀ metadata, Alike isRedacted (.object (params.metadata.getD [])) (.object metadata) →
      audit { params with metadata := some metadata } written = audit params written := by
  constructor
  case left =>
    cases written with
    | ok _         =>
      have hs := sanitized_auditMetadata params
      have hm : (audit params (.ok ())).line.metadata = .object (auditMetadata params) := hs
      constructor
      case mirrors =>
        intro row hr
        cases hr
        exact hm
      case row =>
        intro row hr
        cases hr
        exact hs.hides
      case line => exact hm ▸ hs.hides
    | error reason =>
      exact ⟨by simp [audit], by simp [audit], (sanitized_sanitize _).hides⟩
  case right =>
    intro metadata ha
    have hr : redactProperties isRedacted auditRedacted (params.metadata.getD []) =
        redactProperties isRedacted auditRedacted metadata := object.inj (redact_eq_iff.mpr ha)
    have hd : auditMetadata { params with metadata := some metadata } = auditMetadata params := by
      simp only [auditMetadata, Option.getD_some, hr]
    cases written with
    | ok _         => simp only [audit, auditData, hd]
    | error reason => rfl

def signingParams (xdr : String) : AuditParams := {
  action     := "settlement.submit"
  entityType := "settlement"
  entityId   := "s"
  metadata   := some (signing xdr)
}

theorem audit_signing : audit (signingParams "BBBB") (.ok ()) = audit (signingParams "AAAA") (.ok ()) :=
  (audit_discreet (signingParams "AAAA") (.ok ())).2 (signing "BBBB") (signing_alike "AAAA" "BBBB")

theorem mutation_discreet (options : MutationOptions) (req : FinishedRequest) :
    (∀ trail ∈ stateMutationAudit options req, trail.Discreet) ∧
    ∀ body body', req.body = some body → Alike isRedacted body body' →
      stateMutationAudit options { req with body := some body' } = stateMutationAudit options req := by
  constructor
  case left =>
    intro trail ht
    have hs := sanitized_mutationMetadata options req
    rw [stateMutationAudit] at ht
    split at ht
    case isFalse => cases ht
    case isTrue =>
      cases ht
      constructor
      case mirrors =>
        intro row hr
        cases hr
        exact hs
      case row =>
        intro row hr
        cases hr
        exact hs.hides
      case line => exact (sanitized_sanitize _).hides
  case right =>
    intro body body' hb ha
    have hr : recordedBody body' = recordedBody body := by
      cases body <;> cases body' <;> simp_all [Alike, recordedBody]
    have hm : mutationMetadata options { req with body := some body' } = mutationMetadata options req := by
      have hs : sanitizeAuditMetadata body' = sanitizeAuditMetadata body := (redact_eq_iff.mpr ha).symm
      simp only [mutationMetadata, hb, Option.filter_some, hr]
      split <;> simp [hs]
    simp only [stateMutationAudit, hm]

def signingRequest (xdr : String) : FinishedRequest := {
  method     := "POST"
  userId     := some "ann"
  routeUrl   := "/settlements/:id/submit"
  statusCode := ⟨200, by decide +kernel⟩
  timestamp  := "2026-01-01T00:00:00.000Z"
  body       := some (.object (signing xdr))
}

theorem mutation_signing :
    stateMutationAudit {} (signingRequest "BBBB") = stateMutationAudit {} (signingRequest "AAAA") :=
  (mutation_discreet {} (signingRequest "AAAA")).2 _ _ rfl (signing_alike "AAAA" "BBBB")

end Mergepay.Audit
