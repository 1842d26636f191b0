/-
  THE SERVERS: what an MCP or A2A caller reaches of the application, and after which check.

  `CuratedMcpServer` and `BoundedA2AServer` hold two ports, of the authorization and of the application.
  Each call they make on a port is logged with what became of it, so what a server call did is what it
  added to the log.  The ports may answer anything, and differently each time: they see how many calls
  were made before.

  The LAW (`Authorized`): every call on the application port comes after an authorization, of the same server
  call, that was granted to the same principal for the same resource.
-/
import Mathlib
import Aegis.Lib.Frames
import Aegis.Lib.Machine
import Aegis.Interop.Gateway

namespace Aegis

namespace Interop

/-! ## Contracts -/

inductive McpToolName where
  | incidentRead | evidenceList | memorySearch | runbookRead | statusRead | investigationSubmit
  | proposalSubmit
deriving DecidableEq, Repr

def McpToolName.value : McpToolName → String
  | .incidentRead => "aegis.incident.read"
  | .evidenceList => "aegis.evidence.list"
  | .memorySearch => "aegis.memory.search"
  | .runbookRead => "aegis.runbook.read"
  | .statusRead => "aegis.status.read"
  | .investigationSubmit => "aegis.investigation.submit"
  | .proposalSubmit => "aegis.proposal.submit"

inductive A2ASkillName where
  | investigate | status | artifact | propose
deriving DecidableEq, Repr

def A2ASkillName.value : A2ASkillName → String
  | .investigate => "investigate-incident"
  | .status => "read-investigation-status"
  | .artifact => "read-investigation-artifact"
  | .propose => "submit-remediation-proposal"

/-- `ToolContract`; no tool is destructive. -/
structure ToolContract where
  toolId : Identifier
  capabilityId : Identifier
  name : String
  descriptionDigest : Digest
  inputSchemaDigest : Digest
  outputSchemaDigest : Digest
  risk : RiskLevel
  idempotent : Bool

/-- `AgentSkillContract`; no skill permits an effect. -/
structure AgentSkillContract where
  skillId : Identifier
  name : String
  descriptionDigest : Digest
  capabilityId : Identifier
  inputModes : List String
  outputModes : List String
  risk : RiskLevel

structure ResourceContract where
  resourceRef : OpaqueReference
  resourceKind : Identifier
  mediaType : String
  contentDigest : Digest
  sizeBytes : Nat
  classification : DataClassification
  redacted : Bool
  provenanceDigest : Digest
  expiresAt : Datetime

def ResourceContract.modelDump (r : ResourceContract) : Json :=
  .obj [("schema_version", .int 1), ("resource_ref", .str r.resourceRef.val),
    ("resource_kind", .str r.resourceKind.val), ("media_type", .str r.mediaType),
    ("content_digest", .str r.contentDigest.val), ("size_bytes", .int r.sizeBytes),
    ("classification", .str r.classification.value), ("redacted", .bool r.redacted),
    ("provenance_digest", .str r.provenanceDigest.val), ("expires_at", .str r.expiresAt.jsonText)]

structure McpCursor where
  cursorRef : OpaqueReference
  tenantRef : OpaqueReference
  peerId : Identifier
  operation : String
  position : Nat
  pageSize : Nat
  queryDigest : Digest
  expiresAt : Datetime
  cursorDigest : Digest

/-- The dump without `cursor_digest`. -/
def McpCursor.material (c : McpCursor) : List (String × Json) :=
  [("cursor_ref", .str c.cursorRef.val), ("tenant_ref", .str c.tenantRef.val), ("peer_id", .str c.peerId.val),
    ("operation", .str c.operation), ("position", .int c.position), ("page_size", .int c.pageSize),
    ("query_digest", .str c.queryDigest.val), ("expires_at", .str c.expiresAt.jsonText)]

def McpCursor.modelDump (c : McpCursor) : Json :=
  .obj (c.material ++ [("cursor_digest", .str c.cursorDigest.val)])

/-- `McpCallRequest`.  Of its arguments each is read under its first key. -/
structure McpCallRequest where
  callId : Identifier
  toolName : McpToolName
  arguments : List (String × Json)
  idempotencyKey : Identifier
  cursor : Option McpCursor

inductive McpCallStatus where
  | completed | failed | cancelled | quarantined
deriving DecidableEq, Repr

def McpCallStatus.value : McpCallStatus → String
  | .completed => "completed"
  | .failed => "failed"
  | .cancelled => "cancelled"
  | .quarantined => "quarantined"

structure McpCallResult where
  callId : Identifier
  status : McpCallStatus
  resources : List ResourceContract
  content : List MessagePart
  citations : List CitationContract
  nextCursor : Option McpCursor
  proposalRef : Option OpaqueReference
  resultDigest : Digest
  redactionCount : Nat

structure ProposalSubmission where
  title : String
  summary : String
  risk : RiskLevel
  citations : List CitationContract
  requestedActionKind : Identifier

structure ProposalReceipt where
  proposalRef : OpaqueReference
  proposalDigest : Digest

structure A2ATaskRequest where
  requestId : Identifier
  skillId : Identifier
  message : MessageContract
  resourceRef : OpaqueReference
  idempotencyKeyDigest : Digest
  cursorDigest : Option Digest
  limit : Nat

def A2ATaskRequest.modelDump (r : A2ATaskRequest) : Json :=
  .obj [("schema_version", .int 1), ("request_id", .str r.requestId.val), ("skill_id", .str r.skillId.val),
    ("message", r.message.modelDump), ("resource_ref", .str r.resourceRef.val),
    ("idempotency_key_digest", .str r.idempotencyKeyDigest.val),
    ("cursor_digest", optionalText Subtype.val r.cursorDigest), ("limit", .int r.limit)]

structure A2ATaskResponse where
  taskRef : OpaqueReference
  status : StatusContract
  artifacts : List ArtifactContract
  nextCursorDigest : Option Digest
  proposalRef : Option OpaqueReference
  responseDigest : Digest

/-! ## Ports -/

/-- A call on a port. -/
inductive PortCall where
  | authorizeTool (principal : PrincipalContract) (tool : ToolContract) (resourceRef : String)
  | authorizeSkill (principal : PrincipalContract) (skill : AgentSkillContract) (resourceRef : String)
  | readIncident (principal : PrincipalContract) (incidentRef : String)
  | listEvidence (principal : PrincipalContract) (incidentRef : String) (offset limit : Int)
  | searchMemory (principal : PrincipalContract) (queryDigest : Digest) (incidentRef : String) (limit : Int)
  | readRunbook (principal : PrincipalContract) (runbookRef : String)
  | readRunStatus (principal : PrincipalContract) (runRef : String)
  | submitInvestigation (principal : PrincipalContract) (incidentRef : String) (requestDigest : Digest)
      (idempotencyKey : Identifier)
  | submitProposal (principal : PrincipalContract) (submission : ProposalSubmission)
      (idempotencyKey : Identifier)
  | startInvestigation (principal : PrincipalContract) (message : MessageContract)
      (idempotencyKeyDigest : Digest)
  | readTaskStatus (principal : PrincipalContract) (taskRef : String)
  | readArtifacts (principal : PrincipalContract) (taskRef : String) (cursorDigest : Option Digest)
      (limit : Nat)
  | submitTaskProposal (principal : PrincipalContract) (message : MessageContract)
      (idempotencyKeyDigest : Digest)
  | cancelTask (principal : PrincipalContract) (taskRef commandDigest : String)

/-- A call that was made.  Only an authorization that returned `True` is granted. -/
structure PortEvent where
  call : PortCall
  granted : Bool

/-- The ports, by how many calls were made on them before. -/
structure ServerPorts where
  authorizeTool : Nat → PrincipalContract → ToolContract → String → Except Failure Bool
  authorizeSkill : Nat → PrincipalContract → AgentSkillContract → String → Except Failure Bool
  readIncident : Nat → PrincipalContract → String →
    Except Failure (ResourceContract × List MessagePart × List CitationContract)
  listEvidence : Nat → PrincipalContract → String → Int → Int →
    Except Failure (List ResourceContract × Bool)
  searchMemory : Nat → PrincipalContract → Digest → String → Int →
    Except Failure (List ResourceContract × List CitationContract)
  readRunbook : Nat → PrincipalContract → String →
    Except Failure (ResourceContract × List MessagePart × List CitationContract)
  readRunStatus : Nat → PrincipalContract → String → Except Failure (ResourceContract × List MessagePart)
  submitInvestigation : Nat → PrincipalContract → String → Digest → Identifier →
    Except Failure OpaqueReference
  submitProposal : Nat → PrincipalContract → ProposalSubmission → Identifier →
    Except Failure ProposalReceipt
  startInvestigation : Nat → PrincipalContract → MessageContract → Digest → Except Failure OpaqueReference
  readTaskStatus : Nat → PrincipalContract → String → Except Failure StatusContract
  readArtifacts : Nat → PrincipalContract → String → Option Digest → Nat →
    Except Failure (List ArtifactContract × Option String)
  submitTaskProposal : Nat → PrincipalContract → MessageContract → Digest → Except Failure OpaqueReference
  cancelTask : Nat → PrincipalContract → String → String → Except Failure StatusContract
  now : Nat → Datetime

/-- The key of a cached response. -/
abbrev IdempotencyKey : Type := OpaqueReference × Identifier × Digest

/-- What the servers share: the calls made on the ports, and the responses the A2A server remembers, the
    oldest first. -/
structure ServerState where
  log : List PortEvent
  idempotency : List (IdempotencyKey × Digest × A2ATaskResponse)

def ServerState.start : ServerState where
  log := []
  idempotency := []

abbrev ServerAction (α : Type) : Type := Exec Failure ServerState α

/-- A call on a port: it is logged, then it answers or raises. -/
def callPort {α : Type} (call : PortCall) (answer : Nat → Except Failure α) (grants : α → Bool) :
    ServerAction α := fun s =>
  (answer s.log.length, { s with log := s.log ++ [⟨call, (answer s.log.length).toOption.any grants⟩] })

/-- A call on the application port. -/
def callApplication {α : Type} (call : PortCall) (answer : Nat → Except Failure α) : ServerAction α :=
  callPort call answer fun _ => false

section

variable (sha : Sha256) (texts : Texts) (ports : ServerPorts)

/-- `self._now()`. -/
def serverNow : ServerAction Datetime := fun s => (.ok (ports.now s.log.length), s)

/-! ## Arguments -/

def invalidArgument (key : String) : Failure :=
  ⟨.payloadRejected, "MCP argument " ++ key ++ " is invalid"⟩

/-- `_required_identifier`. -/
def requiredIdentifier (arguments : List (String × Json)) (key : String) : Except Failure String :=
  match arguments.lookup key with
  | some (.str value) =>
    if value.length = 0 ∨ 512 < value.length then .error (invalidArgument key) else .ok value
  | _ => .error (invalidArgument key)

/-- `_required_text`. -/
def requiredText (arguments : List (String × Json)) (key : String) : Except Failure String :=
  match arguments.lookup key with
  | some (.str value) =>
    if value.length = 0 then .error (invalidArgument key)
    else do
      validateUntrustedText texts value
      .ok value
  | _ => .error (invalidArgument key)

/-- `_bounded_int`. -/
def boundedInt (arguments : List (String × Json)) (key : String) (fallback minimum maximum : Int) :
    Except Failure Int :=
  match (arguments.lookup key).getD (.int fallback) with
  | .int value =>
    if value < minimum ∨ maximum < value then
      .error ⟨.payloadRejected, "MCP argument " ++ key ++ " is outside the bound"⟩
    else .ok value
  | _ => .error (invalidArgument key)

/-! ## Parsing -/

/-- A field that must be an opaque reference. -/
def parseReference (place value : String) : Except Failure OpaqueReference :=
  if h : isReference 512 value = true then .ok ⟨value, h⟩ else .error ⟨.validationError, place⟩

/-- A field that must be a digest. -/
def parseDigest (place value : String) : Except Failure Digest :=
  if h : isDigest value = true then .ok ⟨value, h⟩ else .error ⟨.validationError, place⟩

/-- A text under a key of an object. -/
def textField (place : String) (fields : List (String × Json)) (key : String) : Except Failure String :=
  match fields.lookup key with
  | some (.str value) => .ok value
  | _ => .error ⟨.validationError, place ++ "." ++ key⟩

/-- `RiskLevel(value)`. -/
def parseRisk (place value : String) : Except Failure RiskLevel :=
  match [RiskLevel.low, .medium, .high].find? fun risk => riskValue risk = value with
  | some risk => .ok risk
  | none => .error ⟨.validationError, place⟩

/-- A `Literal[1]`. -/
def isVersionOne : Json → Bool
  | .int n => n = 1
  | _ => false

/-- `CitationContract.model_validate`. -/
def parseCitation : Json → Except Failure CitationContract
  | .obj fields => do
    let place := "CitationContract"
    if fields.any fun f => f.1 ∉ ["schema_version", "evidence_id", "locator_digest", "content_hash",
        "provenance_digest"] then .error ⟨.validationError, place⟩
    else if (fields.lookup "schema_version").any fun v => !isVersionOne v then
      .error ⟨.validationError, place ++ ".schema_version"⟩
    else do
      let evidence ← textField place fields "evidence_id"
      let evidenceId ← parseIdentifier (place ++ ".evidence_id") evidence
      let locator ← textField place fields "locator_digest"
      let locatorDigest ← parseDigest (place ++ ".locator_digest") locator
      let content ← textField place fields "content_hash"
      let contentHash ← parseDigest (place ++ ".content_hash") content
      let provenance ← textField place fields "provenance_digest"
      let provenanceDigest ← parseDigest (place ++ ".provenance_digest") provenance
      .ok { evidenceId, locatorDigest, contentHash, provenanceDigest }
  | _ => .error ⟨.validationError, "CitationContract"⟩

/-- A text of a submission: bounded, and safe. -/
def submissionText (fields : List (String × Json)) (key : String) (maximum : Nat) :
    Except Failure String := do
  let value ← textField "ProposalSubmission" fields key
  if value.length = 0 ∨ maximum < value.length then
    .error ⟨.validationError, "ProposalSubmission." ++ key⟩
  else do
    validateUntrustedText texts value
    .ok value

/-- `ProposalSubmission.model_validate`. -/
def parseSubmission : Option Json → Except Failure ProposalSubmission
  | some (.obj fields) => do
    let place := "ProposalSubmission"
    if fields.any fun f => f.1 ∉ ["title", "summary", "risk", "citations", "requested_action_kind"] then
      .error ⟨.validationError, place⟩
    else do
      let title ← submissionText texts fields "title" 200
      let summary ← submissionText texts fields "summary" 2000
      let riskText ← textField place fields "risk"
      let risk ← parseRisk (place ++ ".risk") riskText
      let items ← match fields.lookup "citations" with
        | some (.arr items) =>
          if items.length = 0 ∨ 64 < items.length then .error ⟨.validationError, place ++ ".citations"⟩
          else .ok items
        | _ => .error ⟨.validationError, place ++ ".citations"⟩
      let citations ← items.mapM parseCitation
      let kind ← textField place fields "requested_action_kind"
      let requestedActionKind ← parseIdentifier (place ++ ".requested_action_kind") kind
      .ok { title, summary, risk, citations, requestedActionKind }
  | _ => .error ⟨.validationError, "ProposalSubmission"⟩

/-! ## The MCP server -/

/-- `MAX_PROTOCOL_DOCUMENT_BYTES`. -/
def maxProtocolDocumentBytes : Nat := 256 * 1024

/-- `CuratedMcpServer._result`. -/
def mcpResult (request : McpCallRequest) (status : McpCallStatus) (resources : List ResourceContract)
    (content : List MessagePart) (citations : List CitationContract) (nextCursor : Option McpCursor)
    (proposalRef : Option OpaqueReference) : Except Failure McpCallResult := do
  let redactionCount := content.countP fun part => part.redacted
  let material : Json := .obj [("call_id", .str request.callId.val),
    ("citations", .arr (citations.map CitationContract.modelDump)),
    ("content", .arr (content.map MessagePart.modelDump)),
    ("next_cursor", nextCursor.elim .null McpCursor.modelDump),
    ("proposal_ref", optionalText Subtype.val proposalRef), ("redaction_count", .int redactionCount),
    ("resources", .arr (resources.map ResourceContract.modelDump)), ("schema_version", .int 1),
    ("status", .str status.value)]
  let document ← canonicalDocument texts material
  if maxProtocolDocumentBytes < document.length then
    .error ⟨.payloadRejected, "MCP result exceeds the document bound"⟩
  else do
    let resultDigest ← digestValue sha texts material
    if 100 < resources.length ∨ 32 < content.length ∨ 64 < citations.length then
      .error ⟨.validationError, "McpCallResult"⟩
    else if proposalRef.isSome = true ∧ status ≠ .completed then
      .error ⟨.validationError, "failed MCP calls cannot return a proposal reference"⟩
    else .ok { callId := request.callId, status, resources, content, citations, nextCursor, proposalRef,
               resultDigest, redactionCount }

/-- `McpCursor(...)`, with the digest of its material, where a time is written in UTC. -/
def buildCursor (principal : PrincipalContract) (position pageSize : Nat) (queryDigest hash : Digest) :
    Except Failure McpCursor := do
  let peerId : Identifier := ⟨"aegis-mcp-server", by decide⟩
  let operation := "call-tool"
  let cursorRef ← parseReference "McpCursor.cursor_ref"
    ("mcp-cursor-" ++ String.ofList (hash.val.toList.take 32))
  let cursorDigest ← digestValue sha texts (.obj [("cursor_ref", .str cursorRef.val),
    ("expires_at", .str (⟨principal.expiresAt.instant, 0⟩ : Datetime).jsonText),
    ("operation", .str operation), ("page_size", .int pageSize), ("peer_id", .str peerId.val),
    ("position", .int position), ("query_digest", .str queryDigest.val),
    ("tenant_ref", .str principal.tenantRef.val)])
  let cursor : McpCursor :=
    { cursorRef, tenantRef := principal.tenantRef, peerId, operation, position, pageSize, queryDigest,
      expiresAt := principal.expiresAt, cursorDigest }
  if 10000 < position ∨ pageSize < 1 ∨ 100 < pageSize then .error ⟨.validationError, "McpCursor"⟩
  else do
    let checked ← digestValue sha texts (.obj cursor.material)
    if checked = cursorDigest then .ok cursor
    else .error ⟨.validationError, "MCP cursor digest is invalid"⟩

/-- `CuratedMcpServer._cursor`. -/
def makeCursor (principal : PrincipalContract) (position pageSize : Nat) (queryDigest : Digest) :
    ServerAction McpCursor := do
  let time ← serverNow ports
  let hash ← Exec.lift (digestValue sha texts
    (.arr [.str "aegis-mcp-server", .str queryDigest.val, .int position]))
  Exec.require (time < principal.expiresAt)
    ⟨.policyDenied, "principal expired before cursor issuance"⟩
  Exec.lift (buildCursor sha texts principal position pageSize queryDigest hash)

/-- A `CuratedMcpServer`: exactly the curated tools. -/
structure CuratedMcpServer where
  tools : List ToolContract
  tools_ok : (∀ name : McpToolName, ∃ tool ∈ tools, tool.name = name.value) ∧
    ∀ tool ∈ tools, ∃ name : McpToolName, tool.name = name.value

/-- `self._tools[name]`. -/
def CuratedMcpServer.tool (server : CuratedMcpServer) (name : McpToolName) : Option ToolContract :=
  server.tools.reverse.find? fun tool => tool.name = name.value

/-- The branch of a tool, once authorized. -/
def runTool (principal : PrincipalContract) (request : McpCallRequest) (resourceRef : String) :
    ServerAction McpCallResult :=
  let result := mcpResult sha texts request .completed
  match request.toolName with
  | .incidentRead => do
    let (resource, content, citations) ← callApplication (.readIncident principal resourceRef)
      fun n => ports.readIncident n principal resourceRef
    Exec.lift (result [resource] content citations none none)
  | .evidenceList => do
    let limit ← Exec.lift (boundedInt request.arguments "limit" 50 1 100)
    let offset := request.cursor.elim 0 McpCursor.position
    let (resources, hasMore) ← callApplication (.listEvidence principal resourceRef offset limit)
      fun n => ports.listEvidence n principal resourceRef offset limit
    if hasMore = true then do
      let queryDigest ← Exec.lift (digestValue sha texts (.obj request.arguments))
      let cursor ← makeCursor sha texts ports principal (offset + resources.length) limit.toNat queryDigest
      Exec.lift (result resources [] [] (some cursor) none)
    else Exec.lift (result resources [] [] none none)
  | .memorySearch => do
    let query ← Exec.lift (requiredText texts request.arguments "query")
    let queryDigest ← Exec.lift (digestValue sha texts (.str query))
    let limit ← Exec.lift (boundedInt request.arguments "limit" 8 1 20)
    let (resources, citations) ← callApplication (.searchMemory principal queryDigest resourceRef limit)
      fun n => ports.searchMemory n principal queryDigest resourceRef limit
    Exec.lift (result resources [] citations none none)
  | .runbookRead => do
    let (resource, content, citations) ← callApplication (.readRunbook principal resourceRef)
      fun n => ports.readRunbook n principal resourceRef
    Exec.lift (result [resource] content citations none none)
  | .statusRead => do
    let (resource, content) ← callApplication (.readRunStatus principal resourceRef)
      fun n => ports.readRunStatus n principal resourceRef
    Exec.lift (result [resource] content [] none none)
  | .investigationSubmit => do
    let requestDigest ← Exec.lift (digestValue sha texts (.obj request.arguments))
    let investigationRef ← callApplication
      (.submitInvestigation principal resourceRef requestDigest request.idempotencyKey)
      fun n => ports.submitInvestigation n principal resourceRef requestDigest request.idempotencyKey
    let contentDigest ← Exec.lift (digestValue sha texts (.str investigationRef.val))
    Exec.lift (result [] [{ partId := ⟨"investigation-reference", by decide⟩, kind := .resourceRef,
                            mediaType := "application/vnd.aegis.reference", text := none, data := none,
                            resourceRef := some investigationRef, contentDigest, redacted := false }]
      [] none none)
  | .proposalSubmit => do
    let submission ← Exec.lift (parseSubmission texts (request.arguments.lookup "proposal"))
    let receipt ← callApplication (.submitProposal principal submission request.idempotencyKey)
      fun n => ports.submitProposal n principal submission request.idempotencyKey
    Exec.lift (result [] [] submission.citations none (some receipt.proposalRef))

/-- `CuratedMcpServer.call`; `cancelled` is what `cancelled()` returns. -/
def CuratedMcpServer.call (server : CuratedMcpServer) (principal : PrincipalContract)
    (request : McpCallRequest) (cancelled : Bool) : ServerAction McpCallResult :=
  if cancelled = true then Exec.lift (mcpResult sha texts request .cancelled [] [] [] none none)
  else match server.tool request.toolName with
    | none => Exec.raise ⟨.other, request.toolName.value⟩
    | some tool => do
      let resourceRef ← Exec.lift (requiredIdentifier request.arguments "resource_ref")
      let allowed ← callPort (.authorizeTool principal tool resourceRef)
        (fun n => ports.authorizeTool n principal tool resourceRef) id
      Exec.require (allowed = true) ⟨.policyDenied, "application policy denied the MCP call"⟩
      runTool sha texts ports principal request resourceRef

/-! ## The A2A server -/

/-- `_status`. -/
def statusOf (state : TaskState) (progress sequence : Nat) (occurredAt : Datetime) :
    Except Failure StatusContract := do
  let statusDigest ← digestValue sha texts (.obj [("occurred_at", .str occurredAt.isoformat),
    ("progress_percent", .int progress), ("retry_after_seconds", .null), ("schema_version", .int 1),
    ("sequence", .int sequence), ("state", .str state.value)])
  .ok { state, progressPercent := progress, sequence, retryAfterSeconds := none, statusDigest, occurredAt }

/-- `BoundedA2AServer._response`. -/
def a2aResponse (taskRef : String) (status : StatusContract) (artifacts : List ArtifactContract)
    (nextCursorDigest : Option String) (proposalRef : Option OpaqueReference) :
    Except Failure A2ATaskResponse := do
  let material : Json := .obj [("artifacts", .arr (artifacts.map ArtifactContract.modelDump)),
    ("next_cursor_digest", optionalText id nextCursorDigest),
    ("proposal_ref", optionalText Subtype.val proposalRef), ("schema_version", .int 1),
    ("status", status.modelDump), ("task_ref", .str taskRef)]
  let document ← canonicalDocument texts material
  if maxProtocolDocumentBytes < document.length then
    .error ⟨.payloadRejected, "A2A response exceeds the bound"⟩
  else do
    let responseDigest ← digestValue sha texts material
    let task ← parseReference "A2ATaskResponse.task_ref" taskRef
    if 64 < artifacts.length then .error ⟨.validationError, "A2ATaskResponse.artifacts"⟩
    else do
      let cursor ← match nextCursorDigest with
        | none => .ok none
        | some digest => (parseDigest "A2ATaskResponse.next_cursor_digest" digest).map some
      .ok { taskRef := task, status, artifacts, nextCursorDigest := cursor, proposalRef, responseDigest }

/-- A `BoundedA2AServer`: exactly the bounded skills. -/
structure BoundedA2AServer where
  skills : List AgentSkillContract
  maximumIdempotencyEntries : Nat
  skills_ok : (∀ name : A2ASkillName, ∃ skill ∈ skills, skill.skillId.val = name.value) ∧
    ∀ skill ∈ skills, ∃ name : A2ASkillName, skill.skillId.val = name.value
  entries_ok : 1 ≤ maximumIdempotencyEntries

/-- `self._skills.get(skill_id)`. -/
def BoundedA2AServer.skill (server : BoundedA2AServer) (skillId : Identifier) : Option AgentSkillContract :=
  server.skills.reverse.find? fun skill => skill.skillId = skillId

/-- The branch of a skill, once authorized. -/
def runSkill (principal : PrincipalContract) (skill : AgentSkillContract) (request : A2ATaskRequest) :
    ServerAction A2ATaskResponse :=
  let resourceRef := request.resourceRef.val
  if skill.skillId.val = A2ASkillName.investigate.value then do
    let taskRef ← callApplication
      (.startInvestigation principal request.message request.idempotencyKeyDigest)
      fun n => ports.startInvestigation n principal request.message request.idempotencyKeyDigest
    let time ← serverNow ports
    let status ← Exec.lift (statusOf sha texts .submitted 0 1 time)
    Exec.lift (a2aResponse sha texts taskRef.val status [] none none)
  else if skill.skillId.val = A2ASkillName.status.value then do
    let status ← callApplication (.readTaskStatus principal resourceRef)
      fun n => ports.readTaskStatus n principal resourceRef
    Exec.lift (a2aResponse sha texts resourceRef status [] none none)
  else if skill.skillId.val = A2ASkillName.artifact.value then do
    let (artifacts, cursor) ← callApplication
      (.readArtifacts principal resourceRef request.cursorDigest request.limit)
      fun n => ports.readArtifacts n principal resourceRef request.cursorDigest request.limit
    let time ← serverNow ports
    let status ← Exec.lift (statusOf sha texts .completed 100 1 time)
    Exec.lift (a2aResponse sha texts resourceRef status artifacts cursor none)
  else if skill.skillId.val = A2ASkillName.propose.value then do
    let proposalRef ← callApplication
      (.submitTaskProposal principal request.message request.idempotencyKeyDigest)
      fun n => ports.submitTaskProposal n principal request.message request.idempotencyKeyDigest
    let time ← serverNow ports
    let status ← Exec.lift (statusOf sha texts .completed 100 1 time)
    Exec.lift (a2aResponse sha texts resourceRef status [] none (some proposalRef))
  else Exec.raise ⟨.policyDenied, "A2A skill is unavailable"⟩

/-- The key a response is remembered under. -/
def idempotencyKey (principal : PrincipalContract) (request : A2ATaskRequest) : IdempotencyKey :=
  (principal.tenantRef, principal.principalRef, request.idempotencyKeyDigest)

/-- A response is remembered, and the oldest forgotten when there are too many. -/
def BoundedA2AServer.remember (server : BoundedA2AServer) (key : IdempotencyKey) (digest : Digest)
    (response : A2ATaskResponse) (s : ServerState) : ServerState :=
  let kept := if server.maximumIdempotencyEntries ≤ s.idempotency.length then s.idempotency.tail
    else s.idempotency
  { s with idempotency := kept ++ [(key, digest, response)] }

/-- `BoundedA2AServer.submit`. -/
def BoundedA2AServer.submit (server : BoundedA2AServer) (principal : PrincipalContract)
    (request : A2ATaskRequest) : ServerAction A2ATaskResponse := do
  let requestDigest ← Exec.lift (digestValue sha texts request.modelDump)
  match server.skill request.skillId with
  | none => Exec.raise ⟨.policyDenied, "A2A skill is unavailable"⟩
  | some skill => do
    let allowed ← callPort (.authorizeSkill principal skill request.resourceRef.val)
      (fun n => ports.authorizeSkill n principal skill request.resourceRef.val) id
    Exec.require (allowed = true) ⟨.policyDenied, "application policy denied the A2A task"⟩
    let s ← Exec.read
    match s.idempotency.lookup (idempotencyKey principal request) with
    | some existing => do
      Exec.require (existing.1 = requestDigest)
        ⟨.idempotencyConflict, "A2A idempotency key changed request"⟩
      pure existing.2
    | none => do
      let response ← runSkill sha texts ports principal skill request
      Exec.modify (server.remember (idempotencyKey principal request) requestDigest response)
      pure response

/-- `BoundedA2AServer.cancel`. -/
def cancelTask (principal : PrincipalContract) (taskRef commandDigest : String) :
    ServerAction A2ATaskResponse := do
  let status ← callApplication (.cancelTask principal taskRef commandDigest)
    fun n => ports.cancelTask n principal taskRef commandDigest
  Exec.require (status.state = .cancelled)
    ⟨.reconciliationRequired, "A2A cancellation was not confirmed"⟩
  Exec.lift (a2aResponse sha texts taskRef status [] none none)

end

/-! ## The law -/

/-- What an authorization is for. -/
def PortCall.authorizes : PortCall → Option (PrincipalContract × String)
  | .authorizeTool principal _ resourceRef => some (principal, resourceRef)
  | .authorizeSkill principal _ resourceRef => some (principal, resourceRef)
  | _ => none

/-- Whom a call on the application port is for, and the resource that it names. -/
def PortCall.reaches : PortCall → Option (PrincipalContract × Option String)
  | .authorizeTool .. => none
  | .authorizeSkill .. => none
  | .readIncident principal incidentRef => some (principal, some incidentRef)
  | .listEvidence principal incidentRef _ _ => some (principal, some incidentRef)
  | .searchMemory principal _ incidentRef _ => some (principal, some incidentRef)
  | .readRunbook principal runbookRef => some (principal, some runbookRef)
  | .readRunStatus principal runRef => some (principal, some runRef)
  | .submitInvestigation principal incidentRef _ _ => some (principal, some incidentRef)
  | .submitProposal principal _ _ => some (principal, none)
  | .startInvestigation principal _ _ => some (principal, none)
  | .readTaskStatus principal taskRef => some (principal, some taskRef)
  | .readArtifacts principal taskRef _ _ => some (principal, some taskRef)
  | .submitTaskProposal principal _ _ => some (principal, none)
  | .cancelTask principal taskRef _ => some (principal, some taskRef)

/-- Every call on the application port comes after an authorization that was granted to its principal, for
    the resource that it names. -/
def Authorized (events : List PortEvent) : Prop :=
  ∀ before e after, events = before ++ e :: after → ∀ principal ref,
    e.call.reaches = some (principal, ref) →
    ∃ g ∈ before, g.granted = true ∧ ∃ resource, g.call.authorizes = some (principal, resource) ∧
      ∀ named ∈ ref, named = resource

/-- An authorization that was not granted lets nothing through. -/
def DeniedStops (events : List PortEvent) : Prop :=
  ∀ g ∈ events, g.call.authorizes.isSome = true → g.granted = false →
    ∀ e ∈ events, e.call.reaches = none

/-- A call on the application port for a principal that names no other resource. -/
def About (principal : PrincipalContract) (resource : String) (call : PortCall) : Prop :=
  call.reaches = some (principal, none) ∨ call.reaches = some (principal, some resource)

/-- What an authorized server call adds to the log: nothing, an authorization that was not granted, or one
    that was, followed by calls that it covers. -/
inductive Served (principal : PrincipalContract) (resource : String) : List PortEvent → Prop where
  | silent : Served principal resource []
  | denied (g : PortEvent) (hcall : g.call.authorizes = some (principal, resource))
      (hgranted : g.granted = false) : Served principal resource [g]
  | granted (g : PortEvent) (rest : List PortEvent)
      (hcall : g.call.authorizes = some (principal, resource)) (hgranted : g.granted = true)
      (hrest : ∀ e ∈ rest, About principal resource e.call) : Served principal resource (g :: rest)

theorem reaches_of_authorizes {call : PortCall} (h : call.authorizes.isSome = true) :
    call.reaches = none := by
  cases call <;> first | rfl | cases h

theorem authorizes_of_about {principal : PrincipalContract} {resource : String} {call : PortCall}
    (h : About principal resource call) : call.authorizes = none := by
  cases hauthorizes : call.authorizes with
  | none => rfl
  | some subject =>
    have hsome : call.authorizes.isSome = true := by rw [hauthorizes]; rfl
    have hnone := reaches_of_authorizes hsome
    rcases h with h | h
    · rw [hnone] at h
      cases h
    · rw [hnone] at h
      cases h

/-- **What is served is authorized.** -/
theorem Served.authorized {principal : PrincipalContract} {resource : String} {events : List PortEvent}
    (h : Served principal resource events) : Authorized events := by
  intro before e after hsplit p ref hreaches
  cases h with
  | silent => exact absurd hsplit (by simp)
  | denied g hcall hgranted =>
    obtain ⟨rfl, -, rfl⟩ | ⟨-, h⟩ : (before = [] ∧ after = [] ∧ g = e) ∨ (before ≠ [] ∧ False) := by
      cases before with
      | nil =>
        obtain ⟨rfl, h⟩ := List.cons.inj hsplit
        exact .inl ⟨rfl, h.symm, rfl⟩
      | cons b before => exact absurd (List.cons.inj hsplit).2 (by simp)
    · rw [reaches_of_authorizes (by rw [hcall]; rfl)] at hreaches
      cases hreaches
    · exact h.elim
  | granted g rest hcall hgranted hrest =>
    cases before with
    | nil =>
      obtain ⟨rfl, -⟩ := List.cons.inj hsplit
      rw [reaches_of_authorizes (by rw [hcall]; rfl)] at hreaches
      cases hreaches
    | cons b before =>
      obtain ⟨rfl, htail⟩ := List.cons.inj hsplit
      have htail : rest = before ++ e :: after := htail
      have habout := hrest e (by rw [htail]; simp)
      rcases habout with habout | habout
      · obtain ⟨rfl, rfl⟩ := Prod.mk.inj (Option.some.inj (hreaches.symm.trans habout))
        exact ⟨g, List.mem_cons_self, hgranted, resource, hcall, fun _ hnamed => (by cases hnamed)⟩
      · obtain ⟨rfl, rfl⟩ := Prod.mk.inj (Option.some.inj (hreaches.symm.trans habout))
        exact ⟨g, List.mem_cons_self, hgranted, resource, hcall, fun _ hnamed => (Option.some.inj hnamed).symm⟩

theorem Served.deniedStops {principal : PrincipalContract} {resource : String} {events : List PortEvent}
    (h : Served principal resource events) : DeniedStops events := by
  intro g hg hauthorizes hdenied e he
  cases h with
  | silent => cases hg
  | denied g' hcall hgranted =>
    rw [List.mem_singleton.mp he]
    exact reaches_of_authorizes (by rw [hcall]; rfl)
  | granted g' rest hcall hgranted hrest =>
    rcases List.mem_cons.mp hg with rfl | hg
    · rw [hgranted] at hdenied
      cases hdenied
    · rw [authorizes_of_about (hrest g hg)] at hauthorizes
      cases hauthorizes

/-! ## What bodies call -/

variable {α β : Type}

/-- The body calls the ports with calls of this kind only. -/
def Within (P : PortCall → Prop) (x : ServerAction α) : Prop :=
  ∀ s, ∃ added, (x s).2.log = s.log ++ added ∧ ∀ e ∈ added, P e.call

theorem within_leaves {P : PortCall → Prop} {x : ServerAction α} (h : Exec.Leaves ServerState.log x) :
    Within P x := by
  intro s
  refine ⟨[], ?_, fun _ he => (by cases he)⟩
  rw [List.append_nil]
  exact Exec.Sat.state (I := fun s' : ServerState => s'.log = s.log) (h s)

theorem within_lift {P : PortCall → Prop} (r : Except Failure α) : Within P (Exec.lift r : ServerAction α) :=
  within_leaves (Exec.leaves_lift r)

theorem within_bind {P : PortCall → Prop} {x : ServerAction α} {f : α → ServerAction β}
    (hx : Within P x) (hf : ∀ a, Within P (f a)) : Within P (x >>= f) := by
  intro s
  obtain ⟨added, hlog, hadded⟩ := hx s
  show ∃ more, (Exec.andThen x f s).2.log = _ ∧ _
  unfold Exec.andThen
  rcases hrun : x s with ⟨r, s'⟩
  rw [hrun] at hlog
  cases r with
  | error e => exact ⟨added, hlog, hadded⟩
  | ok a =>
    obtain ⟨more, hmore, hP⟩ := hf a s'
    refine ⟨added ++ more, ?_, fun e he => ?_⟩
    · rw [← List.append_assoc, ← hlog]
      exact hmore
    · rcases List.mem_append.mp he with he | he
      · exact hadded e he
      · exact hP e he

theorem within_application {P : PortCall → Prop} {call : PortCall} (h : P call)
    (answer : Nat → Except Failure α) : Within P (callApplication call answer) :=
  fun _ => ⟨_, rfl, fun _ he => List.mem_singleton.mp he ▸ h⟩

/-- **An authorization first**: what follows it is made only when it was granted. -/
theorem authorized_served {principal : PrincipalContract} {resource : String} {call : PortCall}
    (hcall : call.authorizes = some (principal, resource)) {answer : Nat → Except Failure Bool} {e : Failure}
    {rest : ServerAction α} (hrest : Within (About principal resource) rest) (s : ServerState) :
    ∃ added, ((do
      let allowed ← callPort call answer id
      Exec.require (allowed = true) e
      rest : ServerAction α) s).2.log = s.log ++ added ∧ Served principal resource added := by
  cases hanswer : answer s.log.length with
  | error failure =>
    have hport : callPort call answer id s =
        (.error failure, { s with log := s.log ++ [⟨call, false⟩] }) := by
      unfold callPort
      rw [hanswer]
      rfl
    refine ⟨[⟨call, false⟩], ?_, .denied _ hcall rfl⟩
    show (Exec.andThen (callPort call answer id) _ s).2.log = _
    unfold Exec.andThen
    rw [hport]
  | ok allowed =>
    have hport : callPort call answer id s =
        (.ok allowed, { s with log := s.log ++ [⟨call, allowed⟩] }) := by
      unfold callPort
      rw [hanswer]
      rfl
    rw [Exec.bind_returns hport]
    cases allowed with
    | false => exact ⟨[⟨call, false⟩], rfl, .denied _ hcall rfl⟩
    | true =>
      obtain ⟨added, hlog, habout⟩ := hrest { s with log := s.log ++ [⟨call, true⟩] }
      refine ⟨⟨call, true⟩ :: added, ?_, .granted _ _ hcall rfl habout⟩
      rw [Exec.require_pos rfl, List.append_cons s.log ⟨call, true⟩ added]
      exact hlog

section

variable {sha : Sha256} {texts : Texts} {ports : ServerPorts}

theorem within_cursor {P : PortCall → Prop} (principal : PrincipalContract) (position pageSize : Nat)
    (queryDigest : Digest) : Within P (makeCursor sha texts ports principal position pageSize queryDigest) := by
  refine within_bind (within_leaves fun _ => rfl) fun time => ?_
  refine within_bind (within_lift _) fun hash => ?_
  exact within_bind (within_leaves (Exec.leaves_require _ _)) fun _ => within_lift _

/-- **A tool reaches the application for its caller and the resource of the request only.** -/
theorem runTool_within (principal : PrincipalContract) (request : McpCallRequest) (resourceRef : String) :
    Within (About principal resourceRef) (runTool sha texts ports principal request resourceRef) := by
  unfold runTool
  dsimp only
  cases request.toolName with
  | incidentRead =>
    exact within_bind (within_application (.inr rfl) _) fun ⟨_, _, _⟩ => within_lift _
  | evidenceList =>
    refine within_bind (within_lift _) fun limit => ?_
    refine within_bind (within_application (.inr rfl) _) fun ⟨resources, hasMore⟩ => ?_
    dsimp only
    split
    · refine within_bind (within_lift _) fun queryDigest => ?_
      exact within_bind (within_cursor _ _ _ _) fun _ => within_lift _
    · exact within_lift _
  | memorySearch =>
    refine within_bind (within_lift _) fun query => ?_
    refine within_bind (within_lift _) fun queryDigest => ?_
    refine within_bind (within_lift _) fun limit => ?_
    exact within_bind (within_application (.inr rfl) _) fun ⟨_, _⟩ => within_lift _
  | runbookRead =>
    exact within_bind (within_application (.inr rfl) _) fun ⟨_, _, _⟩ => within_lift _
  | statusRead =>
    exact within_bind (within_application (.inr rfl) _) fun ⟨_, _⟩ => within_lift _
  | investigationSubmit =>
    refine within_bind (within_lift _) fun requestDigest => ?_
    refine within_bind (within_application (.inr rfl) _) fun investigationRef => ?_
    exact within_bind (within_lift _) fun _ => within_lift _
  | proposalSubmit =>
    refine within_bind (within_lift _) fun submission => ?_
    exact within_bind (within_application (.inl rfl) _) fun _ => within_lift _

/-- **A skill does, too.** -/
theorem runSkill_within (principal : PrincipalContract) (skill : AgentSkillContract)
    (request : A2ATaskRequest) :
    Within (About principal request.resourceRef.val) (runSkill sha texts ports principal skill request) := by
  have hnow : Within (About principal request.resourceRef.val) (serverNow ports) :=
    within_leaves fun _ => rfl
  unfold runSkill
  dsimp only
  split
  · refine within_bind (within_application (.inl rfl) _) fun taskRef => within_bind hnow fun time => ?_
    exact within_bind (within_lift _) fun _ => within_lift _
  · split
    · exact within_bind (within_application (.inr rfl) _) fun _ => within_lift _
    · split
      · refine within_bind (within_application (.inr rfl) _) fun ⟨artifacts, cursor⟩ => ?_
        refine within_bind hnow fun time => ?_
        exact within_bind (within_lift _) fun _ => within_lift _
      · split
        · refine within_bind (within_application (.inl rfl) _) fun proposalRef => ?_
          exact within_bind hnow fun time => within_bind (within_lift _) fun _ => within_lift _
        · exact within_leaves (Exec.leaves_raise _)

/-- A body that calls nothing serves nothing. -/
theorem served_silent {x : ServerAction α} (h : Exec.Leaves ServerState.log x)
    (principal : PrincipalContract) (resource : String) (s : ServerState) :
    ∃ added, (x s).2.log = s.log ++ added ∧ Served principal resource added := by
  refine ⟨[], ?_, .silent⟩
  rw [List.append_nil]
  exact Exec.Sat.state (I := fun s' : ServerState => s'.log = s.log) (h s)

/-- A local computation before a body that serves. -/
theorem served_lift {r : Except Failure α} {f : α → ServerAction β} {principal : PrincipalContract}
    {resource : String} (s : ServerState)
    (h : ∀ a, r = .ok a → ∃ added, (f a s).2.log = s.log ++ added ∧ Served principal resource added) :
    ∃ added, ((Exec.lift r >>= f : ServerAction β) s).2.log = s.log ++ added ∧
      Served principal resource added := by
  cases r with
  | ok a => exact h a rfl
  | error e => exact ⟨[], (List.append_nil _).symm, .silent⟩

/-- **An MCP call is served under an authorization**, of the resource that its arguments name. -/
theorem call_served (server : CuratedMcpServer) (principal : PrincipalContract) (request : McpCallRequest)
    (s : ServerState) : ∃ resource added,
      (server.call sha texts ports principal request false s).2.log = s.log ++ added ∧
      Served principal resource added := by
  unfold CuratedMcpServer.call
  rw [if_neg Bool.false_ne_true]
  cases server.tool request.toolName with
  | none => exact ⟨"", served_silent (Exec.leaves_raise _) principal "" s⟩
  | some tool =>
    dsimp only
    cases hresource : requiredIdentifier request.arguments "resource_ref" with
    | error e => exact ⟨"", [], (List.append_nil _).symm, .silent⟩
    | ok resourceRef => exact ⟨resourceRef, authorized_served rfl (runTool_within principal request resourceRef) s⟩

/-- **A submission is served under an authorization**, of the resource of the request; so is a replay. -/
theorem submit_served (server : BoundedA2AServer) (principal : PrincipalContract) (request : A2ATaskRequest)
    (s : ServerState) : ∃ added,
      (server.submit sha texts ports principal request s).2.log = s.log ++ added ∧
      Served principal request.resourceRef.val added := by
  unfold BoundedA2AServer.submit
  refine served_lift s fun requestDigest _ => ?_
  cases server.skill request.skillId with
  | none => exact served_silent (Exec.leaves_raise _) _ _ s
  | some skill =>
    refine authorized_served rfl ?_ s
    refine within_bind (within_leaves Exec.leaves_read) fun s => ?_
    cases s.idempotency.lookup (idempotencyKey principal request) with
    | some existing =>
      exact within_bind (within_leaves (Exec.leaves_require _ _)) fun _ => within_leaves (Exec.leaves_pure _)
    | none =>
      refine within_bind (runSkill_within principal skill request) fun response => ?_
      exact within_bind (within_leaves (Exec.leaves_modify fun _ => rfl)) fun _ =>
        within_leaves (Exec.leaves_pure _)

/-- A cancellation is one call on the application port. -/
theorem cancelTask_log (principal : PrincipalContract) (taskRef commandDigest : String) (s : ServerState) :
    (cancelTask sha texts ports principal taskRef commandDigest s).2.log =
      s.log ++ [⟨.cancelTask principal taskRef commandDigest, false⟩] := by
  have hport : callApplication (.cancelTask principal taskRef commandDigest)
      (fun n => ports.cancelTask n principal taskRef commandDigest) s =
      (ports.cancelTask s.log.length principal taskRef commandDigest,
        { s with log := s.log ++ [⟨.cancelTask principal taskRef commandDigest, false⟩] }) := by
    unfold callApplication callPort
    dsimp only
    cases ports.cancelTask s.log.length principal taskRef commandDigest <;> rfl
  cases hanswer : ports.cancelTask s.log.length principal taskRef commandDigest with
  | error e =>
    rw [hanswer] at hport
    show (Exec.andThen _ _ s).2.log = _
    unfold Exec.andThen
    rw [hport]
  | ok status =>
    rw [hanswer] at hport
    unfold cancelTask
    rw [Exec.bind_returns hport]
    -- what follows the call is local
    refine Exec.Sat.state (I := fun s' : ServerState => s'.log =
      s.log ++ [⟨.cancelTask principal taskRef commandDigest, false⟩]) ?_
    refine Exec.Sat.check (fun _ => rfl) fun _ => ?_
    exact (Exec.sat_lift _).mpr ⟨fun _ _ => rfl, fun _ _ => rfl⟩

end

/-! ## Runs of the servers -/

/-- A call of a server. -/
inductive ServerOp where
  | mcpCall (principal : PrincipalContract) (request : McpCallRequest) (cancelled : Bool)
  | a2aSubmit (principal : PrincipalContract) (request : A2ATaskRequest)
  | a2aCancel (principal : PrincipalContract) (taskRef commandDigest : String)

inductive ServerAnswer where
  | mcp (result : McpCallResult)
  | a2a (response : A2ATaskResponse)

def ServerOp.cancels : ServerOp → Bool
  | .a2aCancel .. => true
  | _ => false

section

variable (sha : Sha256) (texts : Texts) (ports : ServerPorts) (mcp : CuratedMcpServer)
  (a2a : BoundedA2AServer)

def ServerOp.body : ServerOp → ServerAction ServerAnswer
  | .mcpCall principal request cancelled => do
    let result ← mcp.call sha texts ports principal request cancelled
    pure (.mcp result)
  | .a2aSubmit principal request => do
    let response ← a2a.submit sha texts ports principal request
    pure (.a2a response)
  | .a2aCancel principal taskRef commandDigest => do
    let response ← cancelTask sha texts ports principal taskRef commandDigest
    pure (.a2a response)

def serverStep (s : ServerState) (op : ServerOp) : Except Failure ServerAnswer × ServerState :=
  op.body sha texts ports mcp a2a s

variable {sha texts ports mcp a2a}

/-- What a server call does is under authorization: covered by one, stopped by a denial, and nothing when the
    request is cancelled. -/
structure Guarded (op : ServerOp) (events : List PortEvent) : Prop where
  authorized : Authorized events
  denied : DeniedStops events
  cancelled : ∀ principal request, op = .mcpCall principal request true → events = []

theorem state_of_bind {x : ServerAction α} {g : α → ServerAnswer} (s : ServerState) :
    ((do let a ← x; pure (g a) : ServerAction ServerAnswer) s).2 = (x s).2 := by
  show (Exec.andThen x _ s).2 = _
  unfold Exec.andThen
  rcases x s with ⟨r, s'⟩
  cases r <;> rfl

theorem log_of_bind {x : ServerAction α} {g : α → ServerAnswer} (s : ServerState) :
    ((do let a ← x; pure (g a) : ServerAction ServerAnswer) s).2.log = (x s).2.log :=
  congrArg ServerState.log (state_of_bind s)

theorem step_cancel (s : ServerState) (principal : PrincipalContract) (taskRef commandDigest : String) :
    (serverStep sha texts ports mcp a2a s (.a2aCancel principal taskRef commandDigest)).2.log =
      s.log ++ [⟨.cancelTask principal taskRef commandDigest, false⟩] :=
  (log_of_bind s).trans (cancelTask_log principal taskRef commandDigest s)

/-- **A server call is guarded unless it is a cancellation.** -/
theorem step_guarded (s : ServerState) (op : ServerOp) :
    ∃ added, (serverStep sha texts ports mcp a2a s op).2.log = s.log ++ added ∧
      (Guarded op added ↔ op.cancels = false) := by
  cases op with
  | mcpCall principal request cancelled =>
    cases cancelled with
    | true =>
      have hserved : Served principal "" [] := .silent
      refine ⟨[], ?_, fun _ => rfl, fun _ => ⟨hserved.authorized, hserved.deniedStops, fun _ _ _ => rfl⟩⟩
      rw [List.append_nil]
      exact (log_of_bind s).trans (Exec.Sat.state (I := fun s' : ServerState => s'.log = s.log)
        ((Exec.sat_lift _).mpr ⟨fun _ _ => rfl, fun _ _ => rfl⟩))
    | false =>
      obtain ⟨resource, added, hlog, hserved⟩ := call_served mcp principal request s
      refine ⟨added, (log_of_bind s).trans hlog, fun _ => rfl, fun _ => ?_⟩
      exact ⟨hserved.authorized, hserved.deniedStops, fun _ _ h => (by cases h)⟩
  | a2aSubmit principal request =>
    obtain ⟨added, hlog, hserved⟩ := submit_served a2a principal request s
    refine ⟨added, (log_of_bind s).trans hlog, fun _ => rfl, fun _ => ?_⟩
    exact ⟨hserved.authorized, hserved.deniedStops, fun _ _ h => (by cases h)⟩
  | a2aCancel principal taskRef commandDigest =>
    refine ⟨_, step_cancel s principal taskRef commandDigest, fun h => ?_, fun h => (by cases h)⟩
    -- nothing came before it
    obtain ⟨g, hg, -⟩ := h.authorized [] _ [] rfl principal (some taskRef) rfl
    cases hg

/-- **In every run, a server call reaches the application under authorization exactly when it is not a
    cancellation of the A2A server.** -/
theorem servers_authorized_iff {ops : List ServerOp} {e : Machine.Entry ServerState ServerOp (Except Failure ServerAnswer)}
    (he : e ∈ Machine.trace (serverStep sha texts ports mcp a2a) ServerState.start ops) :
    ∃ added, e.after.log = e.before.log ++ added ∧ (Guarded e.op added ↔ e.op.cancels = false) := by
  obtain ⟨before, after, -, hentry⟩ := Machine.trace_mem he
  rw [hentry]
  exact step_guarded _ _

/-! ## Answers that are built -/

theorem length_canonicalJson (v : Json) : (canonicalJson v).length = (dump v).length := by
  rw [canonicalJson, String.length_ofList, length_canonicalChars]

/-- The document of a response without artifacts, cursor and proposal. -/
def plainResponse (task : OpaqueReference) (status : StatusContract) : Json :=
  .obj [("artifacts", .arr []), ("next_cursor_digest", .null), ("proposal_ref", .null),
    ("schema_version", .int 1), ("status", status.modelDump), ("task_ref", .str task.val)]

/-- Such a response is built when its document is within the bounds. -/
theorem a2aResponse_plain {task : OpaqueReference} {status : StatusContract}
    (hnormal : normalizeJson 0 (plainResponse task status) = .ok ())
    (hbound : boundJson texts 0 (plainResponse task status) = .ok ())
    (hlength : (dump (plainResponse task status)).length ≤ maxProtocolDocumentBytes) :
    a2aResponse sha texts task.val status [] none none =
      .ok { taskRef := task, status, artifacts := [], nextCursorDigest := none, proposalRef := none,
            responseDigest := sha.hexdigest (canonicalJson (plainResponse task status)) } := by
  have hdocument : canonicalDocument texts (plainResponse task status) =
      .ok (canonicalJson (plainResponse task status)) := by
    unfold canonicalDocument
    rw [hnormal, hbound]
    rfl
  have href : parseReference "A2ATaskResponse.task_ref" task.val = .ok task := dif_pos task.property
  rw [← length_canonicalJson] at hlength
  unfold a2aResponse
  refine except_bind_ok.mpr ⟨_, hdocument, ?_⟩
  rw [if_neg (Nat.not_lt.mpr hlength)]
  refine except_bind_ok.mpr ⟨_, digestValue_ok hnormal hbound, except_bind_ok.mpr ⟨task, href, ?_⟩⟩
  rw [List.length_nil, if_neg (Nat.not_lt_zero 64)]
  rfl

/-- A port that answers is noted, and its answer passed on. -/
theorem callPort_returns {call : PortCall} {answer : Nat → Except Failure α} {grants : α → Bool} {s : ServerState}
    {a : α} (h : answer s.log.length = .ok a) :
    callPort call answer grants s = (.ok a, { s with log := s.log ++ [⟨call, grants a⟩] }) := by
  unfold callPort
  rw [h]
  rfl

/-- A cancellation that the application confirms. -/
theorem cancelTask_returns {principal : PrincipalContract} {taskRef commandDigest : String} {s : ServerState}
    {status : StatusContract} {response : A2ATaskResponse}
    (hport : ports.cancelTask s.log.length principal taskRef commandDigest = .ok status)
    (hstate : status.state = .cancelled)
    (hresponse : a2aResponse sha texts taskRef status [] none none = .ok response) :
    (serverStep sha texts ports mcp a2a s (.a2aCancel principal taskRef commandDigest)).1 =
      .ok (.a2a response) := by
  have hcancel : cancelTask sha texts ports principal taskRef commandDigest s =
      (.ok response, { s with log := s.log ++ [⟨.cancelTask principal taskRef commandDigest, false⟩] }) := by
    unfold cancelTask callApplication
    rw [Exec.bind_returns (callPort_returns hport), Exec.require_pos hstate, hresponse]
    rfl
  unfold serverStep ServerOp.body
  dsimp only
  rw [Exec.bind_returns hcancel]
  rfl

end

/-! ## Worked servers -/

def sampleTool (name : McpToolName) : ToolContract where
  toolId := code "tool"
  capabilityId := code "lookup"
  name := name.value
  descriptionDigest := sampleDigest
  inputSchemaDigest := sampleDigest
  outputSchemaDigest := sampleDigest
  risk := .low
  idempotent := true

def sampleMcpServer : CuratedMcpServer where
  tools := [.incidentRead, .evidenceList, .memorySearch, .runbookRead, .statusRead, .investigationSubmit,
    .proposalSubmit].map sampleTool
  tools_ok := by
    refine ⟨fun name => ⟨sampleTool name, List.mem_map_of_mem ?_, rfl⟩, fun tool htool => ?_⟩
    · cases name <;> decide
    · obtain ⟨name, -, rfl⟩ := List.mem_map.mp htool
      exact ⟨name, rfl⟩

def A2ASkillName.id (name : A2ASkillName) : Identifier :=
  ⟨name.value, by cases name <;> decide⟩

def sampleSkill (name : A2ASkillName) : AgentSkillContract where
  skillId := name.id
  name := name.value
  descriptionDigest := sampleDigest
  capabilityId := code "lookup"
  inputModes := ["text"]
  outputModes := ["text"]
  risk := .low

def sampleA2AServer : BoundedA2AServer where
  skills := [.investigate, .status, .artifact, .propose].map sampleSkill
  maximumIdempotencyEntries := 10000
  skills_ok := by
    refine ⟨fun name => ⟨sampleSkill name, List.mem_map_of_mem ?_, rfl⟩, fun skill hskill => ?_⟩
    · cases name <;> decide
    · obtain ⟨name, -, rfl⟩ := List.mem_map.mp hskill
      exact ⟨name, rfl⟩
  entries_ok := by decide

/-- An authorization that denies everything, before an application that answers. -/
def denyingPorts : ServerPorts where
  authorizeTool := fun _ _ _ _ => .ok false
  authorizeSkill := fun _ _ _ _ => .ok false
  readIncident := fun _ _ _ => .error ⟨.repositoryUnavailable, "down"⟩
  listEvidence := fun _ _ _ _ _ => .ok ([], false)
  searchMemory := fun _ _ _ _ _ => .ok ([], [])
  readRunbook := fun _ _ _ => .error ⟨.repositoryUnavailable, "down"⟩
  readRunStatus := fun _ _ _ => .error ⟨.repositoryUnavailable, "down"⟩
  submitInvestigation := fun _ _ _ _ _ => .ok ⟨"investigation", by decide⟩
  submitProposal := fun _ _ _ _ => .ok ⟨⟨"proposal", by decide⟩, sampleDigest⟩
  startInvestigation := fun _ _ _ _ => .ok ⟨"investigation", by decide⟩
  readTaskStatus := fun _ _ _ => .ok (sampleStatus .working)
  readArtifacts := fun _ _ _ _ _ => .ok ([], none)
  submitTaskProposal := fun _ _ _ _ => .ok ⟨"proposal", by decide⟩
  cancelTask := fun _ _ _ _ => .ok (sampleStatus .cancelled)
  now := fun _ => ⟨0, 0⟩

def sampleSubmit : ServerOp :=
  .a2aSubmit samplePrincipal
    { requestId := code "request", skillId := A2ASkillName.status.id, message := sampleMessage,
      resourceRef := ⟨"task", by decide⟩, idempotencyKeyDigest := sampleDigest, cursorDigest := none,
      limit := 50 }

def sampleServe : ServerState → ServerOp → Except Failure ServerAnswer × ServerState :=
  serverStep Sha256.constant sampleTexts denyingPorts sampleMcpServer sampleA2AServer

/-- A submission that is denied makes no call on the application. -/
theorem servers_authorized_sample : ∃ e ∈ Machine.trace sampleServe ServerState.start [sampleSubmit],
    ∃ added, e.after.log = e.before.log ++ added ∧ (Guarded e.op added ↔ e.op.cancels = false) := by
  have he : Machine.entry sampleServe ServerState.start sampleSubmit ∈
      Machine.trace sampleServe ServerState.start [sampleSubmit] := List.mem_cons_self
  exact ⟨_, he, servers_authorized_iff he⟩

/-- **A task is cancelled without authorization**, where every authorization is denied. -/
theorem cancel_unauthorized :
    (sampleServe ServerState.start (.a2aCancel samplePrincipal "task" "command")).1.isOk = true ∧
      ∀ added, (sampleServe ServerState.start (.a2aCancel samplePrincipal "task" "command")).2.log =
        ServerState.start.log ++ added → ¬Authorized added := by
  have hresponse : a2aResponse .constant sampleTexts "task" (sampleStatus .cancelled) [] none none = .ok _ :=
    @a2aResponse_plain _ _ ⟨"task", by decide⟩ _ (by decide +kernel) (by decide +kernel) (by decide +kernel)
  refine ⟨?_, fun added hadded hauthorized => ?_⟩
  · unfold sampleServe
    rw [cancelTask_returns rfl rfl hresponse]
    rfl
  have hlog : (sampleServe ServerState.start (.a2aCancel samplePrincipal "task" "command")).2.log =
      ServerState.start.log ++ [⟨.cancelTask samplePrincipal "task" "command", false⟩] := by
    unfold sampleServe
    exact step_cancel ServerState.start samplePrincipal "task" "command"
  obtain rfl := List.append_cancel_left (hadded.symm.trans hlog)
  obtain ⟨g, hg, -⟩ := hauthorized [] _ [] rfl samplePrincipal (some "task") rfl
  cases hg

end Interop

end Aegis
