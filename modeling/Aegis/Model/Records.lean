/-
  RECORDS OF THE MODEL GATEWAY: prices, usage, catalog entries, policies, requests and reservations.

  Money is counted in microunits and tokens in units; a price is microunits for a million tokens, so every
  cost is a product of naturals divided by a million and rounded up (`roundCost`, in `Prices`).
-/
import Mathlib
import Aegis.Domain

namespace Aegis

namespace Model

/-! ## Values -/

inductive ModelProvider where
  | fake | openai | anthropic
deriving DecidableEq, Repr

def ModelProvider.value : ModelProvider → String
  | .fake => "fake"
  | .openai => "openai"
  | .anthropic => "anthropic"

inductive ModelRole where
  | system | user | assistant | tool
deriving DecidableEq, Repr

def ModelRole.value : ModelRole → String
  | .system => "system"
  | .user => "user"
  | .assistant => "assistant"
  | .tool => "tool"

inductive DataClassification where
  | pub | internal | confidential | restricted
deriving DecidableEq, Repr

def DataClassification.value : DataClassification → String
  | .pub => "public"
  | .internal => "internal"
  | .confidential => "confidential"
  | .restricted => "restricted"

inductive ModelCapability where
  | jsonSchema | tools | vision
deriving DecidableEq, Repr

def ModelCapability.value : ModelCapability → String
  | .jsonSchema => "json_schema"
  | .tools => "tools"
  | .vision => "vision"

inductive ModelFinishReason where
  | stop | toolCall | length | contentFilter
deriving DecidableEq, Repr

inductive BillingDisposition where
  | notBilled | billed | ambiguous
deriving DecidableEq, Repr

inductive ModelErrorCode where
  | authentication | badRequest | cancelled | capability | circuitOpen | contentFilter
  | malformedResponse | policyDenied | pricingUnknown | rateLimited | timeout | transient | unavailable
  | usageExceeded
deriving DecidableEq, Repr

/-- `ProviderInvocationError`. -/
structure InvocationError where
  code : ModelErrorCode
  retryable : Bool
  billing : BillingDisposition
deriving DecidableEq, Repr

/-- What a call of the gateway raises: a failed invocation, or another error. -/
inductive Failure where
  | invocation (error : InvocationError)
  | other (error : Error)

/-! ## Usage and prices -/

structure ModelUsage where
  inputTokens : Nat
  outputTokens : Nat
  cacheReadTokens : Nat
  cacheWriteTokens : Nat
  providerReported : Bool
  input_ok : inputTokens ≤ 10000000
  output_ok : outputTokens ≤ 10000000
  read_ok : cacheReadTokens ≤ 10000000
  write_ok : cacheWriteTokens ≤ 10000000

def ModelUsage.totalTokens (usage : ModelUsage) : Nat :=
  usage.inputTokens + usage.outputTokens + usage.cacheReadTokens + usage.cacheWriteTokens

/-- `ModelPrice`, in microunits for a million tokens; its currency is always USD. -/
structure ModelPrice where
  version : Identifier
  input : Nat
  output : Nat
  cacheRead : Nat
  cacheWrite : Nat
  input_ok : input ≤ 1000000000000
  output_ok : output ≤ 1000000000000
  read_ok : cacheRead ≤ 1000000000000
  write_ok : cacheWrite ≤ 1000000000000

structure CredentialReference where
  reference : Identifier
  version : Nat
  version_ok : 1 ≤ version

/-- `ModelCatalogEntry`, as far as the gateway reads it. -/
structure ModelCatalogEntry where
  tenantId : Identifier
  provider : ModelProvider
  model : Identifier
  region : Identifier
  capabilities : List ModelCapability
  contextTokens : Nat
  maximumOutputTokens : Nat
  price : ModelPrice
  credential : CredentialReference
  enabled : Bool
  context_ok : 1 ≤ contextTokens ∧ contextTokens ≤ 10000000
  output_ok : 1 ≤ maximumOutputTokens ∧ maximumOutputTokens ≤ 1000000
  separator_ok : ':' ∉ model.val.toList ∧ ':' ∉ region.val.toList

/-- `key` of an entry, and `catalog_key` of a route. -/
def catalogKey (provider : ModelProvider) (model region : Identifier) : String :=
  provider.value ++ ":" ++ model.val ++ ":" ++ region.val

def ModelCatalogEntry.key (entry : ModelCatalogEntry) : String :=
  catalogKey entry.provider entry.model entry.region

structure ModelRoute where
  provider : ModelProvider
  model : Identifier
  region : Identifier
  priority : Nat
  priority_ok : 1 ≤ priority ∧ priority ≤ 8

def ModelRoute.catalogKey (route : ModelRoute) : String :=
  Model.catalogKey route.provider route.model route.region

structure TenantModelPolicy where
  tenantId : Identifier
  policyId : Identifier
  revision : Nat
  allowedProviders : List ModelProvider
  allowedModels : List Identifier
  allowedRegions : List Identifier
  allowedDataClassifications : List DataClassification
  allowedPurposes : List Identifier
  requiredCapabilities : List ModelCapability
  riskCeiling : RiskLevel
  routes : List ModelRoute
  maximumInputTokens : Nat
  maximumOutputTokens : Nat
  maximumCostMicrounits : Nat
  maximumCallsPerRun : Nat
  repairAttempts : Nat
  fallbackOnAmbiguousBilling : Bool
  revision_ok : 1 ≤ revision
  routes_ok : routes ≠ [] ∧ routes.length ≤ 8 ∧ (routes.map fun r => r.priority).Pairwise (· < ·)
  input_ok : 1 ≤ maximumInputTokens ∧ maximumInputTokens ≤ 10000000
  output_ok : 1 ≤ maximumOutputTokens ∧ maximumOutputTokens ≤ 1000000
  cost_ok : 1 ≤ maximumCostMicrounits ∧ maximumCostMicrounits ≤ 1000000000000
  calls_ok : 1 ≤ maximumCallsPerRun ∧ maximumCallsPerRun ≤ 1000
  repair_ok : repairAttempts ≤ 2

/-- `risk.value`, and the order of `_require_policy`. -/
def riskValue : RiskLevel → String
  | .low => "low"
  | .medium => "medium"
  | .high => "high"

def riskOrder : RiskLevel → Nat
  | .low => 1
  | .medium => 2
  | .high => 3

/-- `sorted(texts)` in a document. -/
def sortedTexts (texts : List String) : Json := .arr ((texts.insertionSort (· ≤ ·)).map .str)

/-- The document whose digest identifies a revision of a policy. -/
def TenantModelPolicy.document (policy : TenantModelPolicy) : Json :=
  .obj [("tenant_id", .str policy.tenantId.val), ("policy_id", .str policy.policyId.val),
    ("revision", .int policy.revision),
    ("allowed_providers", sortedTexts (policy.allowedProviders.map fun p => p.value)),
    ("allowed_models", sortedTexts (policy.allowedModels.map Subtype.val)),
    ("allowed_regions", sortedTexts (policy.allowedRegions.map Subtype.val)),
    ("allowed_data_classifications",
      sortedTexts (policy.allowedDataClassifications.map fun c => c.value)),
    ("allowed_purposes", sortedTexts (policy.allowedPurposes.map Subtype.val)),
    ("required_capabilities", sortedTexts (policy.requiredCapabilities.map fun c => c.value)),
    ("risk_ceiling", .str (riskValue policy.riskCeiling)),
    ("routes", .arr (policy.routes.map fun route => .obj [("provider", .str route.provider.value),
      ("model", .str route.model.val), ("region", .str route.region.val),
      ("priority", .int route.priority)])),
    ("maximum_input_tokens", .int policy.maximumInputTokens),
    ("maximum_output_tokens", .int policy.maximumOutputTokens),
    ("maximum_cost_microunits", .int policy.maximumCostMicrounits),
    ("maximum_calls_per_run", .int policy.maximumCallsPerRun),
    ("repair_attempts", .int policy.repairAttempts),
    ("fallback_on_ambiguous_billing", .bool policy.fallbackOnAmbiguousBilling)]

/-- `canonical_digest`. -/
def TenantModelPolicy.digest (sha : Sha256) (policy : TenantModelPolicy) : Digest :=
  sha.hexdigest (canonicalJson policy.document)

/-! ## Requests -/

structure ModelCallBinding where
  tenantId : Identifier
  runId : Identifier
  callId : Identifier
  purpose : Identifier
  dataClassification : DataClassification
  risk : RiskLevel

/-- A part of a message: a text or a JSON object. -/
inductive MessageContent where
  | text (text : String)
  | json (value : Fields)

def MessageContent.modelDump : MessageContent → Json
  | .text t => .obj [("type", .str "text"), ("text", .str t)]
  | .json v => .obj [("type", .str "json"), ("value", v.toJson)]

structure ModelMessage where
  role : ModelRole
  content : List MessageContent
  name : Option Identifier
  toolCallId : Option Identifier

/-- An optional identifier in a document. -/
def optionalText (value : Option Identifier) : Json := value.elim .null fun v => .str v.val

def ModelMessage.modelDump (message : ModelMessage) : Json :=
  .obj [("role", .str message.role.value), ("content", .arr (message.content.map fun c => c.modelDump)),
    ("name", optionalText message.name), ("tool_call_id", optionalText message.toolCallId)]

structure ToolDefinition where
  name : Identifier
  description : String
  inputSchema : Fields

def ToolDefinition.modelDump (tool : ToolDefinition) : Json :=
  .obj [("name", .str tool.name.val), ("description", .str tool.description),
    ("input_schema", tool.inputSchema.toJson)]

structure StructuredOutputDefinition where
  name : Identifier
  jsonSchema : Fields
  strict : Bool

def StructuredOutputDefinition.modelDump (definition : StructuredOutputDefinition) : Json :=
  .obj [("name", .str definition.name.val), ("json_schema", definition.jsonSchema.toJson),
    ("strict", .bool definition.strict)]

structure ModelRequest where
  binding : ModelCallBinding
  messages : List ModelMessage
  maxOutputTokens : Nat
  temperatureMilli : Nat
  tools : List ToolDefinition
  allowedToolNames : List Identifier
  structuredOutput : Option StructuredOutputDefinition
  messages_ok : messages ≠ [] ∧ messages.length ≤ 64
  output_ok : 1 ≤ maxOutputTokens ∧ maxOutputTokens ≤ 32768
  tools_ok : (tools.map fun t => t.name).Nodup ∧ tools.length ≤ 16 ∧ allowedToolNames.length ≤ 16
  temperature_ok : temperatureMilli ≤ 2000

/-- `request.model_dump(mode="json")`. -/
def ModelRequest.modelDump (request : ModelRequest) : Json :=
  .obj [("binding", .obj [("tenant_id", .str request.binding.tenantId.val),
      ("run_id", .str request.binding.runId.val), ("call_id", .str request.binding.callId.val),
      ("purpose", .str request.binding.purpose.val),
      ("data_classification", .str request.binding.dataClassification.value),
      ("risk", .str (riskValue request.binding.risk))]),
    ("messages", .arr (request.messages.map fun m => m.modelDump)),
    ("max_output_tokens", .int request.maxOutputTokens),
    ("temperature_milli", .int request.temperatureMilli),
    ("tools", .arr (request.tools.map fun t => t.modelDump)),
    ("allowed_tool_names", .arr (request.allowedToolNames.map fun n => .str n.val)),
    ("structured_output", request.structuredOutput.elim .null fun d => d.modelDump)]

def ModelRequest.digest (sha : Sha256) (request : ModelRequest) : Digest :=
  sha.hexdigest (canonicalJson request.modelDump)

/-- `_conservative_tokens`: a third of the length of the canonical text, rounded up. -/
def conservativeTokens (request : ModelRequest) : Nat :=
  max 1 (((canonicalChars (.obj [("messages", .arr (request.messages.map fun m => m.modelDump)),
    ("tools", .arr (request.tools.map fun t => t.modelDump)),
    ("structured_output", request.structuredOutput.elim .null fun d => d.modelDump)])).length + 2) / 3)

/-- `ProviderResult`, as far as the gateway reads it. -/
structure ProviderResult where
  structuredOutput : Fields
  usage : ModelUsage
  finishReason : ModelFinishReason
  blocked : Bool

structure ModelReservation where
  tenantId : Identifier
  runId : Identifier
  reservationId : Identifier
  requestedInputTokens : Nat
  requestedOutputTokens : Nat
  reservedCostMicrounits : Nat
  policyId : Identifier
  policyRevision : Nat
  policyDigest : Digest
  createdAt : Datetime

structure ModelCallRecord where
  tenantId : Identifier
  runId : Identifier
  callId : Identifier
  attemptId : String
  requestDigest : Digest
  catalogKey : String
  priceVersion : Identifier
  policyRevision : Nat
  requestedAt : Datetime
  completedAt : Option Datetime
  outcome : String
  billing : BillingDisposition
  usage : Option ModelUsage
  costMicrounits : Option Nat
  errorCode : Option ModelErrorCode

end Model

end Aegis
