/-
  THE EVIDENCE CONTROL STORE: queries, their events, pages, items, cursors and bundles.

  Every operation ends in `append`, which records an event and folds it onto the view of the query -- or
  finds the event recorded already -- or refuses it.  What an operation writes BEFORE its `append` stays
  written when that refuses.

  A page is begun under an operation identifier (its INTENT) and completed under the same one.  The cursor
  of the next page is kept sealed; a page without a next one drops the cursor.
-/
import Mathlib
import Aegis.Lib.Exec
import Aegis.Lib.HashChain
import Aegis.Evidence.Records

namespace Aegis

namespace Evidence

/-! ## The vault -/

/-- `CursorVault`: its cipher, and the nonces its factory makes. -/
structure CursorVault where
  encrypt : List UInt8 → ByteArray → String → List UInt8
  decrypt : List UInt8 → List UInt8 → String → Option ByteArray
  nonce : Nat → List UInt8

/-- What was encrypted is decrypted. -/
def CursorVault.Faithful (vault : CursorVault) : Prop :=
  ∀ nonce plain aad, vault.decrypt nonce (vault.encrypt nonce plain aad) aad = some plain

def associatedData (key : Key) : String := key.1 ++ String.ofList [nul] ++ key.2

/-- `seal`, with the nonce that was drawn. -/
def CursorVault.seal (vault : CursorVault) (value : String) (key : Key) (nonce : List UInt8) :
    Except Error (List UInt8) :=
  if value.toList.length = 0 ∨ 4096 < value.toList.length then
    .error ⟨.valueError, "evidence cursor value is invalid"⟩
  else if nonce.length ≠ 12 then .error ⟨.valueError, "evidence cursor nonce must be 12 bytes"⟩
  else .ok (nonce ++ vault.encrypt nonce value.toUTF8 (associatedData key))

/-- `open`. -/
def CursorVault.open (vault : CursorVault) (value : List UInt8) (key : Key) : Except Error String :=
  if value.length < 29 ∨ 4128 < value.length then
    .error ⟨.integrityFailure, "encrypted evidence cursor is malformed"⟩
  else
    match (vault.decrypt (value.take 12) (value.drop 12) (associatedData key)).bind String.fromUTF8? with
    | none => .error ⟨.integrityFailure, "encrypted evidence cursor is invalid"⟩
    | some decoded =>
      if decoded.toList.length = 0 ∨ 4096 < decoded.toList.length then
        .error ⟨.integrityFailure, "decrypted evidence cursor is invalid"⟩
      else .ok decoded

/-- What is opened is what was sealed. -/
theorem CursorVault.Faithful.open_seal {vault : CursorVault} (h : vault.Faithful) {value decoded : String}
    {key : Key} {nonce sealedValue : List UInt8} (hseal : vault.seal value key nonce = .ok sealedValue)
    (hopen : vault.open sealedValue key = .ok decoded) : decoded = value := by
  unfold CursorVault.seal at hseal
  split at hseal
  · cases hseal
  · split at hseal
    · cases hseal
    · rename_i hnonce
      have hlength : nonce.length = 12 := not_not.mp hnonce
      have hsealed := Except.ok.inj hseal
      have hdecode : String.fromUTF8? value.toUTF8 = some value := by
        simp only [String.fromUTF8?, String.toUTF8_eq_toByteArray, dif_pos value.isValidUTF8]
        rfl
      unfold CursorVault.open at hopen
      split at hopen
      · cases hopen
      · rw [← hsealed, List.take_left' hlength, List.drop_left' hlength, h, Option.bind_some, hdecode] at hopen
        dsimp only at hopen
        split at hopen
        · cases hopen
        · exact (Except.ok.inj hopen).symm

/-! ## Events -/

structure EvidenceApplicationEvent where
  tenantId : Identifier
  queryId : Identifier
  sequence : Nat
  eventId : Identifier
  eventType : Identifier
  operationId : Identifier
  occurredAt : Datetime
  payload : Fields
  previousHash : Digest
  recordHash : Digest

/-- `_event_hash(event, exclude_record_hash=True)`. -/
def eventHash (sha : Sha256) (event : EvidenceApplicationEvent) : Digest :=
  canonicalDigest sha
    (.obj [("tenant_id", textOf event.tenantId), ("query_id", textOf event.queryId),
      ("sequence", jsonInt event.sequence), ("event_id", textOf event.eventId),
      ("event_type", textOf event.eventType), ("operation_id", textOf event.operationId),
      ("occurred_at", .str event.occurredAt.jsonText), ("payload", event.payload.toJson),
      ("previous_hash", .str event.previousHash.val)])

/-- `_payload_int`. -/
def payloadInt (payload : Fields) (key : String) : Except Error Nat :=
  match payload.lookup key with
  | some (.int (.ofNat n)) => .ok n
  | _ => .error ⟨.integrityFailure, "evidence event " ++ key ++ " is invalid"⟩

/-- `bool(payload.get(key, False))`. -/
def payloadFlag (payload : Fields) (key : String) : Bool :=
  match payload.lookup key with
  | none | some .null => false
  | some (.bool b) => b
  | some (.int i) => i ≠ 0
  | some (.float x) => x.text.any fun c => c.isDigit && c != '0'
  | some (.str s) => s ≠ ""
  | some (.arr xs) => !xs.isEmpty
  | some (.obj fields) => !fields.isEmpty

/-- `value.removeprefix("evidence.query.")`, where it starts so. -/
def queryEvent (eventType : String) : Option String :=
  if "evidence.query.".toList.isPrefixOf eventType.toList = true then
    some (String.ofList (eventType.toList.drop 15))
  else none

/-- The view of a query that was requested. -/
def requestedView (query : EvidenceQuery) (updatedAt : Datetime) : EvidenceQueryView where
  queryId := query.queryId
  incidentId := query.incidentId
  sourceKind := query.source.kind
  status := .requested
  pageCount := 0
  recordCount := 0
  acceptedCount := 0
  quarantinedCount := 0
  failureCode := none
  cursorAvailable := false
  reconciliationRequired := false
  updatedAt

/-- `_reduce_view`. -/
def reduceView (current : Option EvidenceQueryView) (event : EvidenceApplicationEvent)
    (query : EvidenceQuery) : Except Error EvidenceQueryView :=
  match current with
  | none =>
    if event.eventType.val ≠ "evidence.query.requested" then
      .error ⟨.integrityFailure, "evidence projection must start with query request"⟩
    else .ok (requestedView query event.occurredAt)
  | some view =>
    if view.status ∈ terminal then
      if event.operationId.val = event.eventId.val then .ok view
      else .error ⟨.integrityFailure, "terminal evidence query cannot transition"⟩
    else if event.eventType.val = "evidence.page.requested" then
      .ok { view with status := .running, updatedAt := event.occurredAt }
    else if event.eventType.val = "evidence.page.completed" then do
      let records ← payloadInt event.payload "record_count"
      let accepted ← payloadInt event.payload "accepted_count"
      let quarantined ← payloadInt event.payload "quarantined_count"
      pure { view with
        status := .running
        pageCount := view.pageCount + 1
        recordCount := view.recordCount + records
        acceptedCount := view.acceptedCount + accepted
        quarantinedCount := view.quarantinedCount + quarantined
        cursorAvailable := payloadFlag event.payload "cursor_present"
        updatedAt := event.occurredAt }
    else if event.eventType.val = "evidence.query.completed" then
      .ok { view with status := .completed, cursorAvailable := false, updatedAt := event.occurredAt }
    else
      match queryEvent event.eventType.val with
      | none => .error ⟨.integrityFailure, "unknown evidence application event"⟩
      | some value =>
        match QueryStatus.parse value with
        | none => .error ⟨.integrityFailure, "unknown evidence query event type"⟩
        | some status =>
          match event.payload.lookup "failure_code" with
          | some (.str failureCode) =>
            .ok { view with
              status
              failureCode := some failureCode
              reconciliationRequired := decide (status = .reconciliationRequired)
              updatedAt := event.occurredAt }
          | _ => .error ⟨.integrityFailure, "evidence query failure code is invalid"⟩

/-! ## The store -/

abbrev PageKey := Key × Int

/-- The maps of `InMemoryEvidenceControlStore`; `nonces` counts the draws of its vault. -/
structure State where
  queries : Key → Option EvidenceQuery
  events : Key → List EvidenceApplicationEvent
  views : Key → Option EvidenceQueryView
  pageIntents : PageKey → Option String
  pageResults : PageKey → Bool
  evidence : Key → List NormalizedEvidence
  cursors : Key → Option (EvidenceCursor × List UInt8)
  bundles : Key → Option EvidenceBundle
  nonces : Nat

def State.empty : State where
  queries _ := none
  events _ := []
  views _ := none
  pageIntents _ := none
  pageResults _ := false
  evidence _ := []
  cursors _ := none
  bundles _ := none
  nonces := 0

abbrev Store (α : Type) : Type := Exec Error State α

def integrity (message : String) : Error := ⟨.integrityFailure, message⟩

/-- The event of an operation, if it has been recorded. -/
def recorded (events : List EvidenceApplicationEvent) (operationId eventType : String) : Bool :=
  events.any fun item => decide (item.operationId.val = operationId ∧ item.eventType.val = eventType)

/-- `EvidenceApplicationEvent(...)`, with its hash. -/
def buildEvent (sha : Sha256) (key : Key) (events : List EvidenceApplicationEvent)
    (eventType operationId : String) (occurredAt : Datetime) (payload : Fields) :
    Except Error EvidenceApplicationEvent := do
  let tenantId ← Identifier.parse "EvidenceApplicationEvent.tenant_id" key.1
  let queryId ← Identifier.parse "EvidenceApplicationEvent.query_id" key.2
  let eventType ← Identifier.parse "EvidenceApplicationEvent.event_type" eventType
  let operationId ← Identifier.parse "EvidenceApplicationEvent.operation_id" operationId
  if 32 < payload.entries.length then .error (validationError "EvidenceApplicationEvent.payload")
  else
    let draft : EvidenceApplicationEvent :=
      { tenantId, queryId, sequence := events.length + 1,
        eventId := stableIdentifier sha "event" [key.1, key.2, toString (events.length + 1), eventType.val] 32,
        eventType, operationId, occurredAt, payload := payload.sorted,
        previousHash := HashChain.lastDigest EvidenceApplicationEvent.recordHash zeroHash events,
        recordHash := zeroHash }
    pure { draft with recordHash := eventHash sha draft }

/-- `self._views[key]`. -/
def viewOf (s : State) (key : Key) : Except Error EvidenceQueryView :=
  match s.views key with
  | none => .error ⟨.keyError, "_views"⟩
  | some view => .ok view

/-- `self._queries[key]`. -/
def queryOf (s : State) (key : Key) : Except Error EvidenceQuery :=
  match s.queries key with
  | none => .error ⟨.keyError, "_queries"⟩
  | some query => .ok query

/-- What `_append` makes of an event: the recorded view, or the event and the view to record. -/
def appended (sha : Sha256) (s : State) (key : Key) (eventType operationId : String)
    (occurredAt : Datetime) (payload : Fields) :
    Except Error (EvidenceQueryView × Option EvidenceApplicationEvent) :=
  if recorded (s.events key) operationId eventType = true then do
    let view ← viewOf s key
    pure (view, none)
  else do
    let event ← buildEvent sha key (s.events key) eventType operationId occurredAt payload
    let query ← queryOf s key
    let view ← reduceView (s.views key) event query
    pure (view, some event)

/-- The writes of an event. -/
def State.record (s : State) (key : Key) (event : EvidenceApplicationEvent) (view : EvidenceQueryView) :
    State :=
  { s with
    events := Function.update s.events key (s.events key ++ [event])
    views := Function.update s.views key (some view) }

/-- `_append`. -/
def append (sha : Sha256) (key : Key) (eventType operationId : String) (occurredAt : Datetime)
    (payload : Fields) : Store EvidenceQueryView := do
  let s ← Exec.read
  let (view, event) ← Exec.lift (appended sha s key eventType operationId occurredAt payload)
  match event with
  | none => pure view
  | some event => do
    Exec.modify fun s => s.record key event view
    pure view

section Operations

variable (sha : Sha256) (vault : CursorVault)

def requestPayload (query : EvidenceQuery) : Fields :=
  .of [("incident_id", textOf query.incidentId), ("query", query.modelDump),
    ("query_digest", .str (query.digest sha).val), ("source_kind", .str query.source.kind.value)]

/-- `request`. -/
def request (query : EvidenceQuery) (operationId : String) : Store EvidenceQueryView := do
  let s ← Exec.read
  match s.queries query.key with
  | some existing => do
    Exec.require (existing.digest sha = query.digest sha)
      ⟨.idempotencyConflict, "evidence query id was reused with different input"⟩
    Exec.lift (viewOf s query.key)
  | none => do
    Exec.modify fun s => { s with
      queries := Function.update s.queries query.key (some query)
      evidence := Function.update s.evidence query.key [] }
    append sha query.key "evidence.query.requested" operationId query.createdAt (requestPayload sha query)

inductive PageStart where
  | started | completed
deriving DecidableEq, Repr

def beginPayload (cursorRef : Option String) (pageNumber : Int) : Fields :=
  .of [("cursor_present", .bool cursorRef.isSome), ("page_number", .int pageNumber)]

/-- `begin_page`. -/
def beginPage (key : Key) (pageNumber : Int) (operationId : String) (cursorRef : Option String)
    (occurredAt : Datetime) : Store PageStart := do
  let s ← Exec.read
  if s.pageResults (key, pageNumber) = true then pure .completed
  else do
    Exec.require (s.pageIntents (key, pageNumber) = none)
      ⟨.reconciliationRequired, "evidence page has unresolved external-call intent"⟩
    Exec.modify fun s => { s with
      pageIntents := Function.update s.pageIntents (key, pageNumber) (some operationId) }
    let _ ← append sha key "evidence.page.requested" operationId occurredAt
      (beginPayload cursorRef pageNumber)
    pure .started

/-- `EvidenceCursor(...)` for the page after this one. -/
def buildCursor (query : EvidenceQuery) (pageNumber : Int) (value : String) (occurredAt : Datetime) :
    Except Error EvidenceCursor :=
  if hpage : 1 ≤ pageNumber ∧ pageNumber ≤ 100 then
    .ok { tenantId := query.tenantId, incidentId := query.incidentId, queryId := query.queryId,
          sourceId := query.source.sourceId, pageNumber,
          cursorRef := stableIdentifier sha "cursor" [query.tenantId.val, query.queryId.val,
            toString pageNumber, (sha.hexdigest value).val] 32
          cursorDigest := sha.hexdigest value, createdAt := occurredAt,
          expiresAt := occurredAt.addSeconds 300, page_ok := hpage,
          expiry_ok := by
            show occurredAt.instant < occurredAt.instant + 300 * 1000000
            omega }
  else .error (validationError "EvidenceCursor.page_number")

/-- The cursor that `complete_page` keeps. -/
def keepCursor (query : EvidenceQuery) (pageNumber : Int) (nextCursor : Option String)
    (occurredAt : Datetime) : Store (Option EvidenceCursor) :=
  match nextCursor with
  | none => do
    Exec.modify fun s => { s with cursors := Function.update s.cursors query.key none }
    pure none
  | some value => do
    let cursor ← Exec.lift (buildCursor sha query pageNumber value occurredAt)
    let s ← Exec.read
    Exec.modify fun s => { s with nonces := s.nonces + 1 }
    let sealedValue ← Exec.lift (vault.seal value query.key (vault.nonce s.nonces))
    Exec.modify fun s => { s with
      cursors := Function.update s.cursors query.key (some (cursor, sealedValue)) }
    pure (some cursor)

/-- `_disposition_counts(evidence)["accepted"]`. -/
def acceptedCount (evidence : List NormalizedEvidence) : Nat := evidence.countP NormalizedEvidence.usable

/-- `_disposition_counts(evidence)["quarantined"]`. -/
def quarantinedCount (evidence : List NormalizedEvidence) : Nat :=
  evidence.countP fun x => decide (x.disposition = .quarantined)

def pagePayload (evidence : List NormalizedEvidence) (cursorPresent : Bool) (pageNumber : Int) : Fields :=
  .of [("accepted_count", jsonInt (acceptedCount evidence)), ("cursor_present", .bool cursorPresent),
    ("page_number", .int pageNumber), ("quarantined_count", jsonInt (quarantinedCount evidence)),
    ("record_count", jsonInt evidence.length)]

/-- The items whose identifiers are not stored yet. -/
def newItems (stored evidence : List NormalizedEvidence) : List NormalizedEvidence :=
  evidence.filter fun x => !(stored.map NormalizedEvidence.evidenceId).contains x.evidenceId

/-- `complete_page`. -/
def completePage (query : EvidenceQuery) (pageNumber : Int) (operationId : String)
    (evidence : List NormalizedEvidence) (nextCursor : Option String) (occurredAt : Datetime) :
    Store (Option EvidenceCursor) := do
  let s ← Exec.read
  if s.pageResults (query.key, pageNumber) = true then pure ((s.cursors query.key).map Prod.fst)
  else do
    Exec.require (s.pageIntents (query.key, pageNumber) = some operationId)
      ⟨.concurrencyConflict, "evidence page intent is not owned"⟩
    Exec.modify fun s => { s with
      pageResults := Function.update s.pageResults (query.key, pageNumber) true
      evidence := Function.update s.evidence query.key
        (s.evidence query.key ++ newItems (s.evidence query.key) evidence) }
    let cursor ← keepCursor sha vault query pageNumber nextCursor occurredAt
    let _ ← append sha query.key "evidence.page.completed" operationId occurredAt
      (pagePayload evidence cursor.isSome pageNumber)
    pure cursor

def completePayload (bundle : EvidenceBundle) : Fields :=
  .of [("bundle_digest", .str bundle.bundleDigest.val), ("bundle_id", textOf bundle.bundleId),
    ("evidence_count", jsonInt bundle.evidence.length)]

/-- `complete_query`. -/
def completeQuery (query : EvidenceQuery) (operationId : String) (bundle : EvidenceBundle)
    (occurredAt : Datetime) : Store EvidenceQueryView := do
  let s ← Exec.read
  match s.bundles query.key with
  | some existing => do
    Exec.require (existing.bundleDigest = bundle.bundleDigest)
      ⟨.idempotencyConflict, "evidence bundle result changed"⟩
    Exec.lift (viewOf s query.key)
  | none => do
    Exec.modify fun s => { s with
      bundles := Function.update s.bundles query.key (some bundle)
      cursors := Function.update s.cursors query.key none }
    append sha query.key "evidence.query.completed" operationId occurredAt (completePayload bundle)

/-- The statuses a query can fail with. -/
def failureStatuses : List QueryStatus := [.cancelled, .failed, .reconciliationRequired, .stale]

/-- `fail_query`. -/
def failQuery (key : Key) (operationId failureCode : String) (status : QueryStatus)
    (occurredAt : Datetime) : Store EvidenceQueryView := do
  Exec.require (status ∈ failureStatuses) ⟨.valueError, "invalid evidence query failure status"⟩
  append sha key ("evidence.query." ++ status.value) operationId occurredAt
    (.of [("failure_code", .str failureCode)])

/-- One event of `rebuild`: the chain, the hash, and the fold. -/
def rebuildStep (query : Except Error EvidenceQuery) (current : Option EvidenceQueryView × Digest)
    (event : EvidenceApplicationEvent) : Except Error (Option EvidenceQueryView × Digest) := do
  if event.previousHash ≠ current.2 then
    .error (integrity "evidence query event hash chain is invalid")
  else if event.recordHash ≠ eventHash sha event then
    .error (integrity "evidence query event record hash is invalid")
  else do
    let query ← query
    let view ← reduceView current.1 event query
    pure (some view, event.recordHash)

/-- `rebuild`. -/
def rebuild (key : Key) : Store EvidenceQueryView := do
  let s ← Exec.read
  Exec.require (s.events key ≠ []) (integrity "evidence query events are unavailable")
  let (view, _) ← Exec.lift ((s.events key).foldlM (rebuildStep sha (queryOf s key)) (none, zeroHash))
  match view with
  | none => Exec.raise (integrity "evidence query projection could not be rebuilt")
  | some view => do
    Exec.modify fun s => { s with views := Function.update s.views key (some view) }
    pure view

/-- `cursor_value`, at the time of its clock. -/
def cursorValue (key : Key) (cursorRef : String) (now : Datetime) : Store String := do
  let s ← Exec.read
  match s.cursors key with
  | none => Exec.raise (integrity "evidence cursor is unavailable")
  | some (cursor, sealedValue) => do
    Exec.require (cursor.cursorRef.val = cursorRef) (integrity "evidence cursor reference is invalid")
    Exec.require (now < cursor.expiresAt)
      ⟨.reconciliationRequired, "evidence cursor has expired"⟩
    Exec.lift (vault.open sealedValue key)

end Operations

/-! ## Runs -/

/-- A call of the store. -/
inductive StoreOp where
  | request (query : EvidenceQuery) (operationId : String)
  | beginPage (key : Key) (pageNumber : Int) (operationId : String) (cursorRef : Option String)
      (occurredAt : Datetime)
  | completePage (query : EvidenceQuery) (pageNumber : Int) (operationId : String)
      (evidence : List NormalizedEvidence) (nextCursor : Option String) (occurredAt : Datetime)
  | completeQuery (query : EvidenceQuery) (operationId : String) (bundle : EvidenceBundle)
      (occurredAt : Datetime)
  | failQuery (key : Key) (operationId failureCode : String) (status : QueryStatus) (occurredAt : Datetime)
  | rebuild (key : Key)

/-- What a call returns, when it returns. -/
inductive Returned where
  | view (view : EvidenceQueryView)
  | page (start : PageStart)
  | cursor (cursor : Option EvidenceCursor)

/-- A body and what is done with its value. -/
def returning {α : Type} (x : Store α) (f : α → Returned) : Store Returned := do
  let a ← x
  pure (f a)

/-- One call. -/
def storeStep (sha : Sha256) (vault : CursorVault) (s : State) (op : StoreOp) :
    Except Error Returned × State :=
  match op with
  | .request query operationId => returning (request sha query operationId) .view s
  | .beginPage key pageNumber operationId cursorRef occurredAt =>
    returning (beginPage sha key pageNumber operationId cursorRef occurredAt) .page s
  | .completePage query pageNumber operationId evidence nextCursor occurredAt =>
    returning (completePage sha vault query pageNumber operationId evidence nextCursor occurredAt) .cursor s
  | .completeQuery query operationId bundle occurredAt =>
    returning (completeQuery sha query operationId bundle occurredAt) .view s
  | .failQuery key operationId failureCode status occurredAt =>
    returning (failQuery sha key operationId failureCode status occurredAt) .view s
  | .rebuild key => returning (rebuild sha key) .view s

end Evidence

end Aegis
