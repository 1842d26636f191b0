/-
  INGESTION: a record is read, redacted and judged, and what was accepted is remembered.

  Texts are read, normalized and searched by libraries (`Libraries`).  A record that is neither quarantined
  nor a duplicate is REMEMBERED by tenant, incident and content hash at once -- before the other records of
  its page are looked at, and before anything is stored.
-/
import Mathlib
import Aegis.Lib.Exec
import Aegis.Evidence.Records

namespace Aegis

namespace Evidence

/-! ## Libraries and policy -/

/-- A regular expression: how often it is found, and the text with its matches replaced. -/
structure Pattern where
  findall : String → Nat
  subn : String → String × Nat

/-- What reads and searches texts: digests of bytes, media types, JSON, YAML and archives, Unicode and
    lines, the three groups of patterns, and the configured scanners. -/
structure Libraries where
  rawDigest : List UInt8 → Digest
  mediaType : String → String
  loads : String → Option Json
  safeLoad : String → Option Json
  readArchive : List UInt8 → Except QuarantineReason String
  normalized : String → String
  lines : String → List String
  secretPatterns : List (Identifier × Pattern)
  piiPatterns : List (Identifier × Pattern)
  injectionPatterns : List (Identifier × Pattern)
  scanners : List (String → Except Error (List ScannerFinding))

structure IngestionPolicy where
  retentionRef : String
  allowedClassifications : List DataClassification
  maximumTextChars : Nat
  maximumYamlNodes : Nat
  quarantineInjection : Bool
  retention_ok : 1 ≤ retentionRef.toList.length ∧ retentionRef.toList.length ≤ 128
  text_ok : 1024 ≤ maximumTextChars ∧ maximumTextChars ≤ 65536
  nodes_ok : 10 ≤ maximumYamlNodes ∧ maximumYamlNodes ≤ 10000

/-- `_ALLOWED_FACTS`. -/
def allowedFacts : EvidenceSourceKind → List String
  | .dynatrace =>
    ["baseline", "error_code", "metric", "region", "sample_count", "threshold", "timestamp", "value"]
  | .github =>
    ["change_id", "deployment", "environment", "minutes_before_alert", "service", "sha", "status",
      "timestamp", "version"]
  | .kubernetes => ["count", "involved_kind", "involved_name", "namespace", "reason", "timestamp", "type"]
  | .runbook => ["action", "condition", "owner", "service", "title", "version"]

/-- `_TEXT_TYPES`. -/
def textTypes : List String :=
  ["application/json", "application/yaml", "application/x-yaml", "text/markdown", "text/plain"]

/-! ## Reading -/

/-- The loop of `_bound_structure`: the last child is looked at first, and every value counts. -/
def boundLoop : Nat → List (Json × Nat) → Except QuarantineReason Unit
  | _, [] => .ok ()
  | 0, _ :: _ => .error .size
  | nodes + 1, (item, depth) :: stack =>
    if 32 < depth then .error .size
    else
      match item with
      | .obj fields =>
        if 256 < fields.length then .error .size
        else if fields.any (fun f => f.1.toList.length = 0 ∨ 512 < f.1.toList.length) = true then
          .error .malformed
        else boundLoop nodes ((fields.map fun f => (f.2, depth + 1)).reverse ++ stack)
      | .arr values =>
        if 1000 < values.length then .error .size
        else boundLoop nodes ((values.map fun v => (v, depth + 1)).reverse ++ stack)
      | _ => boundLoop nodes stack

/-- `_bound_structure`. -/
def boundStructure (value : Json) (maximumNodes : Nat) : Except QuarantineReason Unit :=
  boundLoop maximumNodes [(value, 0)]

section Ingest

variable (sha : Sha256) (libs : Libraries) (policy : IngestionPolicy)

/-- `_parse`. -/
def parse (record : ConnectorRecord) : Except QuarantineReason (String × Json) :=
  let contentType := libs.mediaType record.contentType
  if contentType = "application/zip" then do
    let text ← libs.readArchive record.payload
    pure (text, .obj [])
  else if contentType ∉ textTypes then .error .contentType
  else
    match String.fromUTF8? ⟨record.payload.toArray⟩ with
    | none => .error .malformed
    | some text =>
      if contentType = "text/markdown" ∨ contentType = "text/plain" then .ok (text, .obj [])
      else
        match (if contentType = "application/json" then libs.loads else libs.safeLoad) text with
        | none => .error .malformed
        | some value => do
          boundStructure value policy.maximumYamlNodes
          pure (canonicalJson value, value)

/-- `_canonical_text`. -/
def canonicalText (text : String) : Except Error String :=
  if policy.maximumTextChars < (libs.normalized text).toList.length then
    .error ⟨.connectorRejected, "canonical evidence exceeds the text bound"⟩
  else .ok (libs.normalized text)

/-- `ScannerFinding(...)`. -/
def finding (scanner ruleId : Identifier) (severity : String) (count : Nat) : Except Error ScannerFinding :=
  if 10000 < count then .error (validationError "ScannerFinding.count")
  else .ok ⟨scanner, ruleId, severity, count⟩

/-- `_scan_and_redact`: the text without its matches, the findings and the number of redactions. -/
def scanAndRedact (text : String) (patterns : List (Identifier × Pattern)) (scanner : Identifier)
    (severity : String) : Except Error (String × List ScannerFinding × Nat) :=
  patterns.foldlM
    (fun (redacted, findings, count) (ruleId, pattern) =>
      if pattern.findall redacted = 0 then .ok (redacted, findings, count)
      else do
        let found ← finding scanner ruleId severity (pattern.findall redacted)
        pure ((pattern.subn redacted).1, findings ++ [found], count + (pattern.subn redacted).2))
    (text, [], 0)

/-- `_scan`. -/
def scan (text : String) (patterns : List (Identifier × Pattern)) (scanner : Identifier)
    (severity : String) : Except Error (List ScannerFinding) :=
  patterns.foldlM
    (fun findings (ruleId, pattern) =>
      if pattern.findall text = 0 then .ok findings
      else do
        let found ← finding scanner ruleId severity (pattern.findall text)
        pure (findings ++ [found]))
    []

def named (s : String) (h : isIdentifier s = true := by exact computed) : Identifier := ⟨s, h⟩

/-- A record that was read and scanned. -/
structure Scanned where
  text : String
  value : Json
  findings : List ScannerFinding
  redactionCount : Nat
  quarantine : Option QuarantineReason

/-- The text that is kept: none of a quarantined record. -/
def Scanned.kept (scanned : Scanned) : String := if scanned.quarantine = none then scanned.text else ""

/-- The first half of `ingest`: reading, redacting, scanning, and whether to quarantine. -/
def examine (query : EvidenceQuery) (record : ConnectorRecord) : Except Error Scanned :=
  match parse libs policy record with
  | .error reason => .ok ⟨"", .obj [], [], 0, some reason⟩
  | .ok (text, value) => do
    let text ← canonicalText libs policy text
    let (text, secretFindings, secretRedactions) ←
      scanAndRedact text libs.secretPatterns (named "aegis-secret-v1") "blocking"
    let (text, piiFindings, piiRedactions) ←
      scanAndRedact text libs.piiPatterns (named "aegis-pii-v1") "warning"
    let injectionFindings ← scan text libs.injectionPatterns (named "aegis-injection-v1") "blocking"
    let scannerFindings ← libs.scanners.mapM fun scanner => scanner text
    let findings := secretFindings ++ piiFindings ++ injectionFindings ++ scannerFindings.flatten
    let quarantine :=
      if secretFindings ≠ [] then some .secret
      else if injectionFindings ≠ [] ∧ policy.quarantineInjection = true then some .promptInjection
      else if findings.any (fun f => f.severity = "blocking") = true then some .scannerRejected
      else if query.source.classification ∉ policy.allowedClassifications then some .classification
      else none
    pure ⟨text, value, findings, secretRedactions + piiRedactions, quarantine⟩

/-- `_project_facts`. -/
def projectFacts (kind : EvidenceSourceKind) (value : Json) : Fields :=
  match value with
  | .obj fields => .of (fields.filter fun f =>
      decide (f.1 ∈ allowedFacts kind) &&
        match f.2 with
        | .str s => decide (s.toList.length ≤ 512)
        | .arr _ | .obj _ => false
        | _ => true)
  | _ => ∅

/-- `_project_redacted_facts`. -/
def projectRedactedFacts (kind : EvidenceSourceKind) (text : String) (original : Json) :
    Except Error Fields :=
  match original with
  | .obj (_ :: _) =>
    match libs.loads text with
    | none => .error ⟨.connectorRejected, "redacted evidence could not be projected safely"⟩
    | some redacted => .ok (projectFacts kind redacted)
  | _ => .ok ∅

/-- The facts of a record; a quarantined one has none. -/
def scannedFacts (kind : EvidenceSourceKind) (scanned : Scanned) : Except Error Fields :=
  if scanned.quarantine = none then projectRedactedFacts libs kind scanned.text scanned.value else .ok ∅

/-- `_summary`. -/
def summary (text : String) (kind : EvidenceSourceKind) (disposition : EvidenceDisposition) : String :=
  if disposition = .quarantined then kind.value ++ " evidence quarantined by ingestion policy."
  else
    match (libs.lines text).find? fun line => line ≠ "" with
    | none => kind.value ++ " evidence contained no descriptive text."
    | some first => String.ofList (first.toList.take 512)

/-! ## Judging -/

/-- Tenant, incident and content hash, and the item that was remembered for them. -/
abbrev DuplicateIndex := String × String × String → Option Identifier

/-- `setdefault`. -/
def remember (index : DuplicateIndex) (key : String × String × String) (evidenceId : Identifier) :
    DuplicateIndex := Function.update index key (some ((index key).getD evidenceId))

/-- The target of a duplicate; a quarantined record has none. -/
def duplicateOf (quarantine : Option QuarantineReason) (found : Option Identifier) : Option Identifier :=
  if quarantine = none then found else none

/-- The disposition of a record. -/
def dispose (quarantine : Option QuarantineReason) (found : Option Identifier) (redactionCount : Nat) :
    EvidenceDisposition :=
  if quarantine ≠ none then .quarantined
  else if duplicateOf quarantine found ≠ none then .duplicate
  else if redactionCount ≠ 0 then .redacted
  else .accepted

theorem dispose_quarantined {quarantine : Option QuarantineReason} {found : Option Identifier} {n : Nat} :
    dispose quarantine found n = .quarantined ↔ quarantine ≠ none := by
  unfold dispose
  split
  · exact ⟨fun _ => by assumption, fun _ => rfl⟩
  · rename_i hno
    refine ⟨fun h => ?_, fun h => absurd h hno⟩
    split at h
    · cases h
    · split at h <;> cases h

theorem dispose_duplicate {quarantine : Option QuarantineReason} {found : Option Identifier} {n : Nat} :
    dispose quarantine found n = .duplicate ↔ duplicateOf quarantine found ≠ none := by
  unfold dispose
  split
  · rename_i hquarantine
    refine ⟨fun h => (by cases h), fun h => absurd ?_ h⟩
    unfold duplicateOf
    rw [if_neg hquarantine]
  · split
    · exact ⟨fun _ => by assumption, fun _ => rfl⟩
    · rename_i hno
      refine ⟨fun h => ?_, fun h => absurd h hno⟩
      split at h <;> cases h

/-- `sorted(findings, key=lambda item: (item.scanner, item.rule_id, item.severity))`. -/
def sortedFindings (findings : List ScannerFinding) : List ScannerFinding :=
  findings.insertionSort fun a b => a.scanner.val < b.scanner.val ∨ a.scanner.val = b.scanner.val ∧
    (a.ruleId.val < b.ruleId.val ∨ a.ruleId.val = b.ruleId.val ∧ a.severity ≤ b.severity)

/-- `EvidenceProvenance(...)` and `NormalizedEvidence(...)`, with what their fields refuse. -/
def normalize (query : EvidenceQuery) (record : ConnectorRecord) (pageNumber : Int) (retrievedAt : Datetime)
    (scanned : Scanned) (found : Option Identifier) : Except Error NormalizedEvidence := do
  let rawHash := libs.rawDigest record.payload
  let text := scanned.kept
  let disposition := dispose scanned.quarantine found scanned.redactionCount
  let retentionRef ← Identifier.parse "EvidenceProvenance.retention_ref" policy.retentionRef
  if pageNumber < 1 ∨ 100 < pageNumber then .error (validationError "EvidenceProvenance.page_number")
  else do
    let facts ← scannedFacts libs query.source.kind scanned
    if 16384 < facts.size then .error (validationError "NormalizedEvidence.facts")
    else if 65536 < text.toList.length then .error (validationError "NormalizedEvidence.canonical_text")
    else if 10000 < scanned.redactionCount then
      .error (validationError "NormalizedEvidence.redaction_count")
    else if 64 < scanned.findings.length then
      .error (validationError "NormalizedEvidence.scanner_findings")
    else
      pure
        { evidenceId := stableIdentifier sha "evidence" [query.tenantId.val, query.incidentId.val,
            query.source.sourceId.val, rawHash.val] 24
          tenantId := query.tenantId, incidentId := query.incidentId, kind := query.source.kind,
          summary := summary libs text query.source.kind disposition, facts := facts.sorted,
          canonicalText := text, contentHash := sha.hexdigest text,
          provenance :=
            { tenantId := query.tenantId, incidentId := query.incidentId, runId := query.runId,
              sourceId := query.source.sourceId, sourceKind := query.source.kind,
              sourceTrust := query.source.trust, sourceDigest := query.source.digest sha,
              queryId := query.queryId, queryDigest := query.digest sha, pageNumber := pageNumber.toNat,
              locator := record.locator, observedAt := record.observedAt, retrievedAt,
              credentialVersion := query.source.credentialVersion,
              policyRevision := query.source.policyRevision,
              classification := query.source.classification, retentionRef, rawContentHash := rawHash }
          disposition, redactionCount := scanned.redactionCount,
          scannerFindings := sortedFindings scanned.findings, quarantineReason := scanned.quarantine,
          duplicateOf := duplicateOf scanned.quarantine found,
          quarantine_ok := dispose_quarantined, duplicate_ok := dispose_duplicate }

/-- Where the text of a scanned record is remembered. -/
def indexKey (query : EvidenceQuery) (scanned : Scanned) : String × String × String :=
  (query.tenantId.val, query.incidentId.val, (sha.hexdigest scanned.kept).val)

/-- `ingest`. -/
def ingest (query : EvidenceQuery) (record : ConnectorRecord) (pageNumber : Int) (retrievedAt : Datetime) :
    Exec Error DuplicateIndex NormalizedEvidence := do
  let scanned ← Exec.lift (examine libs policy query record)
  let index ← Exec.read
  let result ← Exec.lift (normalize sha libs policy query record pageNumber retrievedAt scanned
    (index (indexKey sha query scanned)))
  if result.usable = true then do
    Exec.modify fun index => remember index (indexKey sha query scanned) result.evidenceId
    pure result
  else pure result

/-- The records of a page, one after the other. -/
def ingestAll (query : EvidenceQuery) (pageNumber : Int) (retrievedAt : Datetime) :
    List ConnectorRecord → Exec Error DuplicateIndex (List NormalizedEvidence)
  | [] => pure []
  | record :: records => do
    let item ← ingest sha libs policy query record pageNumber retrievedAt
    let items ← ingestAll query pageNumber retrievedAt records
    pure (item :: items)

/-- `ingest_page`: the records in the order of their identifiers. -/
def ingestPage (query : EvidenceQuery) (records : List ConnectorRecord) (pageNumber : Int)
    (retrievedAt : Datetime) : Exec Error DuplicateIndex (List NormalizedEvidence) :=
  ingestAll sha libs policy query pageNumber retrievedAt
    (records.insertionSort fun a b => a.recordId.val ≤ b.recordId.val)

end Ingest

end Evidence

end Aegis
