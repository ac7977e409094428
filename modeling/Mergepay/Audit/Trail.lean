import Mathlib.Data.List.Infix
import Mergepay.Text.Properties
import Mergepay.Treasury.Store

-- The audit trail is written to the database, and mirrored to a stream of lines for operators.
namespace Mergepay.Audit

open Money Text

-- Among the letters that are not in ASCII, only the Kelvin sign has its lower case there.
def toLowerCase (key : JsString) : JsString :=
  key.map fun u => if u = 0x212A then 0x6B else if 0x41 ≤ u ∧ u ≤ 0x5A then u + 0x20 else u

def isRedacted (key : JsString) : Bool :=
  (Treasury.auditRedactedKeys.map JsString.ofString).contains (toLowerCase key)

def auditRedacted : Json :=
  .string (.ofString Treasury.auditRedacted)

-- Values that are not JSON, such as dates, pass as they are. They are left out.
def sanitizeAuditMetadata : Json → Json :=
  Json.redact isRedacted auditRedacted

abbrev Record :=
  List (JsString × Json)

def Record.text (record : Record) (key value : String) : Record :=
  Properties.set record (.ofString key) (.string (.ofString value))

def Record.optional (record : Record) (key : String) (value : Option String) : Record :=
  value.elim record (record.text key)

-- The rows of the trail

structure AuditParams where
  userId         : Option String := none
  groupId        : Option String := none
  action         : String
  entityType     : String
  entityId       : String
  outcome        : Option String := none
  actorType      : Option String := none
  actorPublicKey : Option String := none
  metadata       : Option Record := none

structure AuditData where
  userId     : Option String
  groupId    : Option String
  action     : String
  entityType : String
  entityId   : String
  metadata   : Record

def auditMetadata (params : AuditParams) : Record :=
  let metadata : Record := Json.redactProperties isRedacted auditRedacted <| params.metadata.getD []
  let metadata := metadata.optional "outcome" (params.outcome.bind present)
  let metadata := metadata.optional "actorType" (params.actorType.bind present)
  metadata.optional "actorPublicKey" (params.actorPublicKey.bind present)

def auditData (params : AuditParams) : AuditData := {
  userId     := params.userId
  groupId    := params.groupId
  action     := params.action
  entityType := params.entityType
  entityId   := params.entityId
  metadata   := auditMetadata params
}

-- The lines of the stream

structure AuditEventInput where
  action         : String
  actorType      : Option Json := none
  userId         : Option String := none
  actorPublicKey : Option Json := none
  groupId        : Option String := none
  entityType     : String
  entityId       : String
  outcome        : Option Json := none
  metadata       : Option Record := none
  correlationId  : Option String := none

structure AuditActor where
  type : Json
  id   : Option String

structure AuditLine where
  actor          : AuditActor
  action         : String
  entityType     : String
  entityId       : String
  groupId        : Option String
  outcome        : Json
  actorPublicKey : Option Json
  correlationId  : Option String
  metadata       : Json

def defined : Json → Bool
  | .null => false
  | _     => true

def truthy : Json → Bool
  | .null     => false
  | .bool b   => b
  | .number x => x.val ≠ 0
  | .string s => s ≠ []
  | _         => true

def isText (text : String) : Json → Bool
  | .string s => s = .ofString text
  | _         => false

def failureByActionName (action : String) : Bool :=
  ".failed".toList <:+ action.toList ∨ "_failed".toList <:+ action.toList ∨
  "validation_failed".toList <:+: action.toList

-- The time of the line is left out.
def emitAuditEvent (input : AuditEventInput) : AuditLine :=
  let userId := input.userId.bind present
  let actorType := (input.actorType.filter defined).getD <|
    .string <| .ofString <| if userId.isSome then "user" else "system"
  {
    actor          := { type := actorType, id := if isText "user" actorType then userId else none }
    action         := input.action
    entityType     := input.entityType
    entityId       := input.entityId
    groupId        := input.groupId
    outcome        := (input.outcome.filter defined).getD <|
      .string <| .ofString <| if failureByActionName input.action then "failure" else "success"
    actorPublicKey := input.actorPublicKey.filter truthy
    correlationId  := input.correlationId.bind present
    metadata       := sanitizeAuditMetadata <| .object <| input.metadata.getD []
  }

-- What the line says about the actor is read from the metadata of the row.
def emitTelemetry (data : AuditData) : AuditLine :=
  emitAuditEvent {
    action         := data.action
    actorType      := data.metadata.lookup <| .ofString "actorType"
    userId         := data.userId
    actorPublicKey := data.metadata.lookup <| .ofString "actorPublicKey"
    groupId        := data.groupId
    entityType     := data.entityType
    entityId       := data.entityId
    outcome        := data.metadata.lookup <| .ofString "outcome"
    metadata       := some data.metadata
  }

structure Trail where
  row  : Option AuditData
  line : AuditLine

-- Outside of transactions, the reason for which a row cannot be written becomes part of the line.
def audit (params : AuditParams) : (written : Except String Unit) → Trail
  | .ok ()        => { row := some (auditData params), line := emitTelemetry (auditData params) }
  | .error reason => {
    row  := none
    line := emitAuditEvent {
      action         := params.action
      actorType      := params.actorType.map (.string <| .ofString ·)
      userId         := params.userId
      actorPublicKey := params.actorPublicKey.map (.string <| .ofString ·)
      groupId        := params.groupId
      entityType     := params.entityType
      entityId       := params.entityId
      outcome        := some <| .string <| .ofString "failure"
      metadata       := some [
        (.ofString "audit_write_failed", .bool true),
        (.ofString "reason", .string <| .ofString reason)
      ]
    }
  }

-- The rows of requests that may change the state

def mutatingHttpMethods : List String :=
  ["POST", "PUT", "PATCH", "DELETE"]

structure MutationOptions where
  actionPrefix : String := "api.mutation"
  recordBody   : Bool := true

structure FinishedRequest where
  method     : String
  userId     : Option String
  routeUrl   : String
  statusCode : Number.Double
  timestamp  : String
  body       : Option Json

def recordedBody : Json → Bool
  | .array _ | .object _ => true
  | _                    => false

def mutationMetadata (options : MutationOptions) (req : FinishedRequest) : Record :=
  let payload := (req.body.filter fun body => options.recordBody ∧ recordedBody body).map sanitizeAuditMetadata
  [
    (.ofString "method", .string <| .ofString req.method),
    (.ofString "route", .string <| .ofString req.routeUrl),
    (.ofString "statusCode", .number req.statusCode),
    (.ofString "timestamp", .string <| .ofString req.timestamp)
  ] ++ payload.toList.map (.ofString "payload", ·)

-- The row is written as it is, whereas the metadata of the line are sanitized once more.
def stateMutationAudit (options : MutationOptions) (req : FinishedRequest) : Option Trail :=
  if req.method ∈ mutatingHttpMethods then
    let action := options.actionPrefix ++ "." ++ .ofList (req.method.toList.map Char.toLower)
    let metadata := mutationMetadata options req
    some {
      row  := some {
        userId     := req.userId
        groupId    := none
        action     := action
        entityType := "api_route"
        entityId   := req.routeUrl
        metadata   := metadata
      }
      line := emitAuditEvent {
        action     := action
        userId     := req.userId
        actorType  := some <| .string <| .ofString <| if (req.userId.bind present).isSome then "user" else "system"
        entityType := "api_route"
        entityId   := req.routeUrl
        outcome    := some <| .string <| .ofString <|
          if 200 ≤ req.statusCode.val ∧ req.statusCode.val < 400 then "success" else "failure"
        metadata   := some metadata
      }
    }
  else
    none

end Mergepay.Audit
