/-
  REPLAY DEBUGGING: the second verifier of the ledger, and the support report of a run.

  `ReplayDebugger.verify` recomputes both hash chains like `verify_integrity` does, but it keeps its
  heads as pairs, may start in the MIDDLE of a ledger from anchors, and names the first check that
  fails.  `replayReport` reads the window of a tenant's events from the first to the last event of a
  run page by page, anchors a debugger at the edge of the window and reports.

  Headline results:
    * `verify_agrees`        -- from the start of a ledger the two verifiers say the same;
    * `verifyFrom_chain`     -- inside a chain only a schema version can fail;
    * `replay_agrees`        -- the report of a run of a reachable store.
-/
import Mathlib
import Aegis.Lib.Pages
import Aegis.Durability.Integrity

namespace Aegis

namespace Durability

/-! ## Reading events -/

/-- `aggregate_type is None or event.aggregate_type == aggregate_type`, and the same for the id. -/
def ofAggregate (aggregateType aggregateId : Option String) (event : ApplicationEvent) : Bool :=
  aggregateType.all (fun t => event.aggregateType.val == t)
    && aggregateId.all (fun i => event.aggregateId.val == i)

/-- `events`: one page of a tenant's events. -/
def Store.eventPage (s : Store) (tenantId : String) (aggregateType aggregateId : Option String)
    (afterCursor limit : Nat) : Except Error (List ApplicationEvent) :=
  if limit < 1 ∨ 500 < limit then
    .error ⟨.valueError, "event page limit is outside the permitted range"⟩
  else .ok (((s.events tenantId).filter fun e =>
    decide (afterCursor < e.tenantCursor) && ofAggregate aggregateType aggregateId e).take limit)

/-! ## Records of a replay -/

def maxReplayEvents : Nat := 10000

def maxReportBytes : Nat := 32768

/-- `ReplayIntegrity`. -/
structure ReplayIntegrity where
  valid : Bool
  eventCount : Nat
  lastCursor : Nat
  lastHash : Digest
  failureCode : Option Identifier

/-- `ReplayPoint`. -/
structure ReplayPoint where
  cursor : Nat
  eventType : Option Identifier
  state : Option RunView
  stateDigest : Digest

/-- `ProjectionDifference`. -/
structure ProjectionDifference where
  isMatch : Bool
  liveDigest : Digest
  replayDigest : Digest
  differingFields : List String

/-- `CausalItem`. -/
structure CausalItem where
  cursor : Nat
  eventType : Identifier
  status : RunStatus
  blocked : Bool
  causationKnown : Bool
  traceRef : Option String

/-- `SupportReport`; its schema version is a constant. -/
structure SupportReport where
  integrity : ReplayIntegrity
  projection : Option ProjectionDifference
  causalChain : List CausalItem
  reportDigest : Digest
  truncated : Bool
  completenessCode : Option Identifier

/-- `RunStatus.value`. -/
def RunStatus.value : RunStatus → String
  | .queued => "queued"
  | .running => "running"
  | .waiting => "waiting"
  | .completed => "completed"
  | .failed => "failed"
  | .cancelRequested => "cancel_requested"
  | .cancelled => "cancelled"
  | .timedOut => "timed_out"

/-- `_model_value`: the members of `model_dump(mode="json")`, none for no run. -/
def modelValue : Option RunView → List (String × Json)
  | none => []
  | some run =>
    [("tenant_id", .str run.tenantId.val), ("run_id", .str run.runId.val),
     ("incident_id", .str run.incidentId.val), ("request_ref", .str run.requestRef.val),
     ("workflow_id", .str run.workflowId.val), ("status", .str run.status.value),
     ("version", .int run.version), ("last_cursor", .int run.lastCursor),
     ("created_at", .str run.createdAt.jsonText), ("updated_at", .str run.updatedAt.jsonText),
     ("failure_code", run.failureCode.elim .null .str), ("replayed", .bool run.replayed)]

/-- `_digest_mapping`. -/
def digestMapping (sha : Sha256) (value : List (String × Json)) : Digest :=
  sha.hexdigest (canonicalJson (.obj value))

/-- `_digest_model`. -/
def digestModel (sha : Sha256) (value : Option RunView) : Digest :=
  digestMapping sha (modelValue value)

def ReplayIntegrity.modelDump (i : ReplayIntegrity) : Json :=
  .obj [("valid", .bool i.valid), ("event_count", .int i.eventCount),
    ("last_cursor", .int i.lastCursor), ("last_hash", .str i.lastHash.val),
    ("failure_code", i.failureCode.elim .null (fun c => .str c.val))]

def ProjectionDifference.modelDump (p : ProjectionDifference) : Json :=
  .obj [("matches", .bool p.isMatch), ("live_digest", .str p.liveDigest.val),
    ("replay_digest", .str p.replayDigest.val),
    ("differing_fields", .arr (p.differingFields.map .str))]

def CausalItem.modelDump (c : CausalItem) : Json :=
  .obj [("cursor", .int c.cursor), ("event_type", .str c.eventType.val),
    ("status", .str c.status.value), ("blocked", .bool c.blocked),
    ("causation_known", .bool c.causationKnown), ("trace_ref", c.traceRef.elim .null .str)]

/-! ## The debugger -/

/-- `ReplayDebugger`: events in cursor order and the anchors the chains start from. -/
structure ReplayDebugger where
  events : List ApplicationEvent
  tenantAnchorCursor : Nat
  tenantAnchorHash : Digest
  aggregateAnchors : String × String → Option (Nat × Digest)

/-- The constructor.  The sort is stable. -/
def ReplayDebugger.make (events : List ApplicationEvent) (tenantAnchorCursor : Nat)
    (tenantAnchorHash : Digest) (aggregateAnchors : String × String → Option (Nat × Digest)) :
    Except Error ReplayDebugger :=
  if maxReplayEvents < events.length then .error ⟨.valueError, "replay event bound exceeded"⟩
  else
    let sorted := events.insertionSort fun a b => a.tenantCursor ≤ b.tenantCursor
    if 1 < (sorted.map (·.tenantId.val)).dedup.length then
      .error ⟨.valueError, "replay input must contain exactly one tenant"⟩
    else .ok { events := sorted, tenantAnchorCursor, tenantAnchorHash, aggregateAnchors }

/-- `_integrity_failure`: the first check that fails. -/
def integrityFailure (event : ApplicationEvent) (expectedSequence expectedCursor : Nat)
    (expectedAggregateHash expectedTenantHash expectedRecordHash : Digest) (seen : Finset String) :
    Option Identifier :=
  if event.eventId.val ∈ seen then some ⟨"duplicate_event", by decide⟩
  else if event.aggregateSequence ≠ expectedSequence then some ⟨"aggregate_sequence", by decide⟩
  else if event.tenantCursor ≠ expectedCursor then some ⟨"tenant_cursor", by decide⟩
  else if event.aggregatePreviousHash ≠ expectedAggregateHash then
    some ⟨"aggregate_hash", by decide⟩
  else if event.tenantPreviousHash ≠ expectedTenantHash then some ⟨"tenant_hash", by decide⟩
  else if event.recordHash ≠ expectedRecordHash then some ⟨"record_hash", by decide⟩
  else if event.schemaVersion ≠ 1 then some ⟨"schema_version", by decide⟩
  else none

/-- The loop of `verify`; `total` is the number of all events. -/
def verifyFrom (sha : Sha256) (total : Nat) : (String × String → Option (Nat × Digest)) → Nat →
    Digest → Finset String → List ApplicationEvent → Except Error ReplayIntegrity
  | _, tenantCursor, tenantHash, _, [] =>
    .ok { valid := true, eventCount := total, lastCursor := tenantCursor, lastHash := tenantHash,
          failureCode := none }
  | heads, tenantCursor, tenantHash, seen, event :: events => do
    let head := (heads event.aggregate).getD (0, zeroHash)
    let draft ← event.draft
    let expected := sha.hexdigest (eventMaterial event.tenantId.val event.aggregateType.val
      event.aggregateId.val event.aggregateSequence event.tenantCursor draft head.2 tenantHash)
    match integrityFailure event (head.1 + 1) (tenantCursor + 1) head.2 tenantHash expected seen with
    | some failure =>
      .ok { valid := false, eventCount := seen.card, lastCursor := tenantCursor,
            lastHash := tenantHash, failureCode := some failure }
    | none =>
      verifyFrom sha total
        (Function.update heads event.aggregate (some (event.aggregateSequence, event.recordHash)))
        event.tenantCursor event.recordHash (insert event.eventId.val seen) events

/-- `verify`. -/
def ReplayDebugger.verify (sha : Sha256) (d : ReplayDebugger) : Except Error ReplayIntegrity :=
  verifyFrom sha d.events.length d.aggregateAnchors d.tenantAnchorCursor d.tenantAnchorHash ∅
    d.events

/-- The loop of `state_at`: the projection and the last event projected. -/
def stateLoop (runId : String) (cursor : Option Nat) :
    Option RunView → Option ApplicationEvent → List ApplicationEvent →
      Except Error (Option RunView × Option ApplicationEvent)
  | state, last, [] => .ok (state, last)
  | state, last, event :: events =>
    if cursor.any (fun c => decide (c < event.tenantCursor)) then .ok (state, last)
    else if event.aggregateType.val ≠ "investigation" ∨ event.aggregateId.val ≠ runId then
      stateLoop runId cursor state last events
    else do
      let run ← reduceRun state event
      stateLoop runId cursor (some run) (some event) events

/-- `state_at`. -/
def ReplayDebugger.stateAt (sha : Sha256) (d : ReplayDebugger) (runId : String)
    (cursor : Option Int) : Except Error ReplayPoint :=
  if cursor.any (fun c => decide (c < 0)) then
    .error ⟨.valueError, "replay cursor cannot be negative"⟩
  else do
    let (state, last) ← stateLoop runId (cursor.map Int.toNat) none none d.events
    .ok { cursor := last.elim 0 (·.tenantCursor), eventType := last.map (·.eventType), state,
          stateDigest := digestModel sha state }

/-- `value.get(key)`: null when there is no such member. -/
def memberAt (value : List (String × Json)) (key : String) : Json := (value.lookup key).getD .null

/-- `compare`.  Members are compared through their texts, which determine them. -/
def ReplayDebugger.compare (sha : Sha256) (d : ReplayDebugger) (runId : String)
    (live : Option RunView) (cursor : Option Int) : Except Error ProjectionDifference := do
  let point ← d.stateAt sha runId cursor
  let liveValue := modelValue live
  let replayValue := modelValue point.state
  let fields := ((liveValue ++ replayValue).map Prod.fst).dedup.filter fun key =>
    dump (memberAt liveValue key) != dump (memberAt replayValue key)
  .ok { isMatch := fields.isEmpty, liveDigest := digestMapping sha liveValue,
        replayDigest := digestMapping sha replayValue,
        differingFields := fields.insertionSort (· ≤ ·) }

/-- The statuses a causal item shows as blocked. -/
def blockedStatus (status : RunStatus) : Bool :=
  status == .waiting || status == .cancelRequested || status == .failed || status == .timedOut

/-- A trace reference of a payload: a text of at most 80 characters that starts with `00-`. -/
def traceRefOf (payload : Fields) : Option String :=
  match payload.lookup "trace_ref" with
  | some (.str text) => if text.length ≤ 80 ∧ text.startsWith "00-" = true then some text else none
  | _ => none

/-- The loop of `causal_chain`. -/
def causalLoop (runId : String) (known : List String) :
    Option RunView → List ApplicationEvent → Except Error (List CausalItem)
  | _, [] => .ok []
  | state, event :: events =>
    if event.aggregateType.val ≠ "investigation" ∨ event.aggregateId.val ≠ runId then
      causalLoop runId known state events
    else do
      let run ← reduceRun state event
      let rest ← causalLoop runId known (some run) events
      .ok ({ cursor := event.tenantCursor, eventType := event.eventType, status := run.status,
             blocked := blockedStatus run.status,
             causationKnown := event.causationRef.all fun ref => known.contains ref.val,
             traceRef := traceRefOf event.payload } :: rest)

/-- `causal_chain`. -/
def ReplayDebugger.causalChain (d : ReplayDebugger) (runId : String) (maximum : Int) :
    Except Error (List CausalItem) :=
  if maximum < 1 ∨ 500 < maximum then .error ⟨.valueError, "causal chain bound is invalid"⟩
  else do
    let selected ← causalLoop runId (d.events.map (·.eventId.val)) none d.events
    .ok (selected.take maximum.toNat)

/-- The `material` of a report. -/
def reportMaterial (integrity : ReplayIntegrity) (projection : Option ProjectionDifference)
    (truncated : Bool) (completenessCode : Option String) (chain : List CausalItem) : Json :=
  .obj [("integrity", integrity.modelDump),
    ("projection", projection.elim .null (·.modelDump)),
    ("causal_chain", .arr (chain.map (·.modelDump))), ("truncated", .bool truncated),
    ("completeness_code", completenessCode.elim .null .str)]

/-- The loop that drops items from the end until the report fits: `n` items of `chain` are left. -/
def fitChain (size : Bool → List CausalItem → Nat) (maximumBytes : Nat) (chain : List CausalItem) :
    Nat → Bool → List CausalItem × Bool
  | 0, truncated => ([], truncated)
  | n + 1, truncated =>
    if maximumBytes < size truncated (chain.take (n + 1)) then
      fitChain size maximumBytes chain n true
    else (chain.take (n + 1), truncated)

/-- The bytes of the material of a report with a projection. -/
def reportSize (integrity : ReplayIntegrity) (projection : ProjectionDifference) (truncated : Bool)
    (chain : List CausalItem) : Nat :=
  (canonicalChars (reportMaterial integrity (some projection) truncated none chain)).length

/-- The report of a list that does not verify. -/
def failedReport (sha : Sha256) (integrity : ReplayIntegrity) : SupportReport :=
  { integrity, projection := none, causalChain := [],
    reportDigest := sha.hexdigest (canonicalJson
      (reportMaterial integrity none true (some "integrity_failed") [])),
    truncated := true, completenessCode := some ⟨"integrity_failed", by decide⟩ }

/-- The report of a list that verifies: its causal chain is cut until it fits. -/
def fittedReport (sha : Sha256) (integrity : ReplayIntegrity) (projection : ProjectionDifference)
    (chain : List CausalItem) (truncated : Bool) (maximumBytes : Nat) : Except Error SupportReport :=
  let fitted := fitChain (reportSize integrity projection) maximumBytes chain chain.length truncated
  if maximumBytes < reportSize integrity projection fitted.2 fitted.1 then
    .error ⟨.valueError, "support report cannot fit within its byte bound"⟩
  else
    .ok { integrity, projection := some projection, causalChain := fitted.1,
          reportDigest := sha.hexdigest (canonicalJson
            (reportMaterial integrity (some projection) fitted.2 none fitted.1)),
          truncated := fitted.2, completenessCode := none }

/-- `support_report`. -/
def ReplayDebugger.supportReport (sha : Sha256) (d : ReplayDebugger) (runId : String)
    (live : Option RunView) (maximumEvents : Int) (maximumBytes : Nat) :
    Except Error SupportReport :=
  if maximumBytes < 1024 ∨ maxReportBytes < maximumBytes then
    .error ⟨.valueError, "support report byte bound is invalid"⟩
  else do
    let integrity ← d.verify sha
    if integrity.valid = false then .ok (failedReport sha integrity)
    else
      let chain ← d.causalChain runId (min maximumEvents 500)
      let projection ← d.compare sha runId live none
      let truncated := decide (chain.length < (runEvents d.events runId).length)
      fittedReport sha integrity projection chain truncated maximumBytes

/-! ## The report of a run -/

/-- The loop that collects the window.  An iteration that goes on adds an event, so `maxReplayEvents`
    iterations are never exceeded. -/
def collectWindow (s : Store) (tenantId : String) (lastCursor : Nat) :
    Nat → List ApplicationEvent → Nat → Except Error (List ApplicationEvent)
  | 0, events, _ => .ok events
  | fuel + 1, events, afterCursor =>
    if events.length < maxReplayEvents ∧ afterCursor < lastCursor then do
      let page ← s.eventPage tenantId none none afterCursor
        (min 500 (maxReplayEvents - events.length))
      let events' := events ++ page.filter fun e => decide (e.tenantCursor ≤ lastCursor)
      match page.getLast? with
      | none => .ok events'
      | some last =>
        if lastCursor ≤ last.tenantCursor then .ok events'
        else collectWindow s tenantId lastCursor fuel events' last.tenantCursor
    else .ok events

/-- The anchor of an aggregate: the position and hash before its first event of the window. -/
def windowAnchors (events : List ApplicationEvent) (key : String × String) :
    Option (Nat × Digest) :=
  (events.find? fun e => decide (e.aggregate = key)).map fun e =>
    (e.aggregateSequence - 1, e.aggregatePreviousHash)

/-- `DurableInvestigationService.replay_report`; `authorize` is the policy's answer for the caller
    and `Action.REPLAY_READ`. -/
def replayReport (sha : Sha256) (authorize : IdentityContext → Except Error Unit) (s : Store)
    (identity : IdentityContext) (runId : String) (maximumEvents : Int) :
    Except Error (Option SupportReport) := do
  authorize identity
  let tenantId := identity.tenantId.val
  match s.runs (tenantId, runId) with
  | none => .ok none
  | some live => do
    let seed ← s.eventPage tenantId (some "investigation") (some runId) 0 1
    match seed with
    | [] => .error ⟨.integrityFailure, "run events are unavailable"⟩
    | first :: _ => do
      let events ← collectWindow s tenantId live.lastCursor maxReplayEvents []
        (first.tenantCursor - 1)
      match events.head?, events.getLast? with
      | some head, some last =>
        if last.tenantCursor < live.lastCursor then
          .error ⟨.payloadRejected, "run replay window exceeds the event bound"⟩
        else do
          let debugger ← ReplayDebugger.make events (first.tenantCursor - 1)
            head.tenantPreviousHash (windowAnchors events)
          let report ← debugger.supportReport sha runId (some live) maximumEvents maxReportBytes
          .ok (some report)
      | _, _ => .error ⟨.payloadRejected, "run replay window exceeds the event bound"⟩

/-! ## The two verifiers agree -/

variable {sha : Sha256} {s : Store}

/-- No failure is named when all seven checks pass. -/
theorem integrityFailure_none {event : ApplicationEvent} {sequence cursor : Nat}
    {aggregateHash tenantHash recordHash : Digest} {seen : Finset String} :
    integrityFailure event sequence cursor aggregateHash tenantHash recordHash seen = none ↔
      event.schemaVersion = 1 ∧ event.eventId.val ∉ seen ∧ event.aggregateSequence = sequence ∧
        event.tenantCursor = cursor ∧ event.aggregatePreviousHash = aggregateHash ∧
        event.tenantPreviousHash = tenantHash ∧ event.recordHash = recordHash := by
  unfold integrityFailure
  constructor
  · intro h
    by_contra hno
    split_ifs at h
    exact hno ⟨by omega, by assumption, by omega, by omega, not_not.mp (by assumption),
      not_not.mp (by assumption), not_not.mp (by assumption)⟩
  · rintro ⟨h1, h2, h3, h4, h5, h6, h7⟩
    rw [if_neg h2, if_neg (not_not.mpr h3), if_neg (not_not.mpr h4), if_neg (not_not.mpr h5),
      if_neg (not_not.mpr h6), if_neg (not_not.mpr h7), if_neg (not_not.mpr h1)]

section Step

variable {total tenantCursor : Nat} {heads : String × String → Option (Nat × Digest)}
  {tenantHash : Digest} {seen : Finset String} {e : ApplicationEvent}
  {events : List ApplicationEvent} {d : EventDraft} {head : Nat × Digest}

/-- The first check that fails at an event whose draft is `d`. -/
def failureAt (sha : Sha256) (e : ApplicationEvent) (d : EventDraft) (head : Nat × Digest)
    (tenantCursor : Nat) (tenantHash : Digest) (seen : Finset String) : Option Identifier :=
  integrityFailure e (head.1 + 1) (tenantCursor + 1) head.2 tenantHash
    (sealOf sha e d head.2 tenantHash) seen

/-- One event of the loop. -/
theorem verifyFrom_cons (hd : e.draft = .ok d)
    (hhead : (heads e.aggregate).getD (0, zeroHash) = head) :
    verifyFrom sha total heads tenantCursor tenantHash seen (e :: events)
      = match failureAt sha e d head tenantCursor tenantHash seen with
        | some failure => .ok
          { valid := false, eventCount := seen.card, lastCursor := tenantCursor,
            lastHash := tenantHash, failureCode := some failure }
        | none => verifyFrom sha total
            (Function.update heads e.aggregate (some (e.aggregateSequence, e.recordHash)))
            e.tenantCursor e.recordHash (insert e.eventId.val seen) events := by
  rw [verifyFrom, hd, hhead]; rfl

end Step

/-- A head as the pair the debugger keeps. -/
def AggregateHead.pair (h : AggregateHead) : Nat × Digest := (h.sequence, h.recordHash)

/-- **One loop for two verifiers.**  From heads that correspond, the debugger's verdict is the
    ledger's, event by event, exceptions included. -/
theorem verifyFrom_agrees (total : Nat) :
    ∀ (events : List ApplicationEvent) (heads : String × String → Option AggregateHead)
      (pairs : String × String → Option (Nat × Digest)) (head : TenantHead) (seen : Finset String),
    (∀ key, pairs key = (heads key).map AggregateHead.pair) →
    (verifyFrom sha total pairs head.cursor head.recordHash seen events).map (·.valid)
      = verifyEvents sha heads head seen events := by
  intro events
  induction events with
  | nil => intro heads pairs head seen _; rfl
  | cons e events ih =>
    intro heads pairs head seen hpairs
    have hhead : (pairs e.aggregate).getD (0, zeroHash) = ((heads e.aggregate).getD {}).pair := by
      rw [hpairs]
      cases heads e.aggregate with
      | none => rfl
      | some h => rfl
    cases hdraft : e.draft with
    | error error => rw [verifyFrom, verifyEvents, hdraft]; rfl
    | ok d =>
      rw [verifyEvents, hdraft]
      show _ = if _ then _ else _
      cases hfailure : failureAt sha e d ((heads e.aggregate).getD {}).pair head.cursor
          head.recordHash seen with
      | none =>
        obtain ⟨h1, h2, h3, h4, h5, h6, h7⟩ := integrityFailure_none.mp hfailure
        rw [verifyFrom_cons hdraft hhead, hfailure, if_neg]
        · refine ih (Function.update heads e.aggregate (some e.asAggregateHead)) _ e.asTenantHead _ ?_
          intro key
          by_cases hkey : key = e.aggregate
          · subst hkey; rw [Function.update_self, Function.update_self]; rfl
          · rw [Function.update_of_ne hkey, Function.update_of_ne hkey, hpairs]
        · push Not
          exact ⟨h1, h2, h3, h4, h5, h6, h7⟩
      | some failure =>
        rw [verifyFrom_cons hdraft hhead, hfailure, if_pos]
        · rfl
        · by_contra hno
          push Not at hno
          exact absurd (hfailure.symm.trans (integrityFailure_none.mpr hno)) (by simp)

/-- Events in cursor order stay as they are. -/
theorem sorted_events {events : List ApplicationEvent}
    (h : events.Pairwise fun a b => a.tenantCursor ≤ b.tenantCursor) :
    events.insertionSort (fun a b => a.tenantCursor ≤ b.tenantCursor) = events :=
  List.Pairwise.insertionSort_eq h

theorem one_tenant {events : List ApplicationEvent} {t : String}
    (h : ∀ e ∈ events, e.tenantId.val = t) :
    ¬1 < (events.map (·.tenantId.val)).dedup.length := by
  have hsub : (events.map (·.tenantId.val)).dedup ⊆ [t] := by
    intro x hx
    obtain ⟨e, he, rfl⟩ := List.mem_map.mp (List.mem_dedup.mp hx)
    exact List.mem_singleton.mpr (h e he)
  have hlen := (List.nodup_dedup _).subperm hsub |>.length_le
  exact not_lt.mpr hlen

/-- The debugger of a bounded list of events of one tenant in cursor order. -/
theorem make_ok {events : List ApplicationEvent} {t : String} {cursor : Nat} {hash : Digest}
    {anchors : String × String → Option (Nat × Digest)} (hlen : events.length ≤ maxReplayEvents)
    (htenant : ∀ e ∈ events, e.tenantId.val = t)
    (horder : events.Pairwise fun a b => a.tenantCursor ≤ b.tenantCursor) :
    ReplayDebugger.make events cursor hash anchors
      = .ok { events, tenantAnchorCursor := cursor, tenantAnchorHash := hash,
              aggregateAnchors := anchors } := by
  unfold ReplayDebugger.make
  rw [if_neg (not_lt.mpr hlen)]
  simp only [sorted_events horder]
  rw [if_neg (one_tenant htenant)]

/-- The debugger of a whole ledger: the default anchors. -/
def ReplayDebugger.ofLedger (events : List ApplicationEvent) : ReplayDebugger :=
  { events, tenantAnchorCursor := 0, tenantAnchorHash := zeroHash,
    aggregateAnchors := fun _ => none }

/-- **The two verifiers say the same** of a list that starts a ledger, and raise alike. -/
theorem verify_agrees (events : List ApplicationEvent) :
    ((ReplayDebugger.ofLedger events).verify sha).map (·.valid) = verifyLedger sha events :=
  verifyFrom_agrees events.length events (fun _ => none) (fun _ => none) {} ∅ (fun _ => rfl)

/-! ## The window of a run -/

theorem Chain.increasing {t : String} {events : List ApplicationEvent} (h : Chain sha t events) :
    Pages.Increasing (·.tenantCursor) events := by
  have hrange : (events.map (·.tenantCursor)).Pairwise (· < ·) := by
    rw [h.cursors]; exact List.pairwise_lt_range'
  exact List.pairwise_map.mp hrange

/-- The events past `cursor` up to `last`. -/
def eventsBetween (events : List ApplicationEvent) (cursor last : Nat) : List ApplicationEvent :=
  (Pages.after (·.tenantCursor) cursor events).filter fun e => decide (e.tenantCursor ≤ last)

theorem eventPage_all {t : String} {cursor limit : Nat} (hlow : 1 ≤ limit) (hhigh : limit ≤ 500) :
    s.eventPage t none none cursor limit
      = .ok ((Pages.after (·.tenantCursor) cursor (s.events t)).take limit) := by
  unfold Store.eventPage Pages.after
  rw [if_neg (by omega)]
  simp only [ofAggregate, Option.all_none, Bool.and_self, Bool.and_true]

/-- **Paging loses nothing.**  When what is left fits the bound, the loop collects all of it. -/
theorem collectWindow_all {t : String} {last : Nat} (hchain : Chain sha t (s.events t)) :
    ∀ (fuel : Nat) (events : List ApplicationEvent) (cursor : Nat),
    (eventsBetween (s.events t) cursor last).length ≤ fuel →
    events.length + (eventsBetween (s.events t) cursor last).length ≤ maxReplayEvents →
    collectWindow s t last fuel events cursor
      = .ok (events ++ eventsBetween (s.events t) cursor last) := by
  intro fuel
  induction fuel with
  | zero =>
    intro events cursor hfuel _
    have hnil : eventsBetween (s.events t) cursor last = [] :=
      List.length_eq_zero_iff.mp (Nat.le_zero.mp hfuel)
    rw [hnil, List.append_nil]; rfl
  | succ fuel ih =>
    intro events cursor hfuel hbound
    rw [collectWindow]
    by_cases hgo : events.length < maxReplayEvents ∧ cursor < last
    · rw [if_pos hgo, eventPage_all (by omega) (by omega)]
      set limit := min 500 (maxReplayEvents - events.length) with hlimit
      set left := Pages.after (·.tenantCursor) cursor (s.events t) with hleft
      have hsplit : left = left.take limit ++ left.drop limit := (List.take_append_drop _ _).symm
      have hinc : Pages.Increasing (·.tenantCursor) left := hchain.increasing.after cursor
      show (match (left.take limit).getLast? with | none => _ | some _ => _) = _
      cases hlast : (left.take limit).getLast? with
      | none =>
        have hnil : left = [] := by
          have hlen := congrArg List.length (List.getLast?_eq_none_iff.mp hlast)
          rw [List.length_take, List.length_nil] at hlen
          exact List.length_eq_zero_iff.mp (by omega)
        simp only [eventsBetween, ← hleft, hnil, List.take_nil]
      | some e =>
        have hnext : Pages.after (·.tenantCursor) e.tenantCursor (s.events t) = left.drop limit :=
          Pages.after_page hchain.increasing hlast
        by_cases hstop : last ≤ e.tenantCursor
        · -- what the page left lies past the window
          have hdrop : (left.drop limit).filter (fun e => decide (e.tenantCursor ≤ last)) = [] := by
            refine List.filter_eq_nil_iff.mpr fun b hb => ?_
            rw [← hnext] at hb
            have hpast : e.tenantCursor < b.tenantCursor :=
              of_decide_eq_true (List.mem_filter.mp hb).2
            simp only [decide_eq_true_eq]
            omega
          simp only [if_pos hstop, eventsBetween, ← hleft]
          conv_rhs => rw [hsplit, List.filter_append, hdrop, List.append_nil]
        · -- the whole page lies inside the window
          have hpage : (left.take limit).filter (fun e => decide (e.tenantCursor ≤ last))
              = left.take limit := by
            obtain ⟨done, hdone⟩ := List.getLast?_eq_some_iff.mp hlast
            have hinc' : Pages.Increasing (·.tenantCursor) (done ++ [e]) := by
              rw [← hdone]; exact hinc.sublist (List.take_sublist _ _)
            obtain ⟨-, -, hcross⟩ := List.pairwise_append.mp hinc'
            rw [hdone]
            refine List.filter_eq_self.mpr fun b hb => decide_eq_true ?_
            rcases List.mem_append.mp hb with hb | hb
            · have hbefore : b.tenantCursor < e.tenantCursor :=
                hcross b hb e (List.mem_singleton.mpr rfl)
              omega
            · rw [List.mem_singleton.mp hb]; omega
          have hmore : eventsBetween (s.events t) cursor last
              = left.take limit ++ eventsBetween (s.events t) e.tenantCursor last := by
            rw [eventsBetween, eventsBetween, hnext, ← hleft]
            conv_lhs => rw [hsplit, List.filter_append, hpage]
          have hpos : 1 ≤ (left.take limit).length := by
            obtain ⟨done, hdone⟩ := List.getLast?_eq_some_iff.mp hlast
            rw [hdone, List.length_append, List.length_singleton]; omega
          rw [hmore, List.length_append] at hfuel hbound
          simp only [if_neg hstop, hpage]
          rw [ih (events ++ left.take limit) e.tenantCursor (by omega)
            (by rw [List.length_append]; omega), hmore, List.append_assoc]
    · rw [if_neg hgo]
      have hnil : eventsBetween (s.events t) cursor last = [] := by
        by_contra hne
        have hpos := List.length_pos_iff.mpr hne
        obtain ⟨e, he⟩ := List.exists_mem_of_ne_nil _ hne
        obtain ⟨he, hle⟩ := List.mem_filter.mp he
        have hlow : cursor < e.tenantCursor := of_decide_eq_true (List.mem_filter.mp he).2
        have hhigh : e.tenantCursor ≤ last := of_decide_eq_true hle
        omega
      rw [hnil, List.append_nil]

/-! ## Verification inside a chain -/

/-- The verdict of a window that passes. -/
def validIntegrity (total : Nat) (head : TenantHead) : ReplayIntegrity :=
  { valid := true, eventCount := total, lastCursor := head.cursor, lastHash := head.recordHash,
    failureCode := none }

/-- **Inside a chain only a schema version can fail.**  Induction on the events still to come; the
    heads need to be right for the aggregates that still occur. -/
theorem verifyFrom_chain {t : String} (total : Nat) :
    ∀ (rest pre : List ApplicationEvent) (heads : String × String → Option (Nat × Digest))
      (seen : Finset String), Chain sha t (pre ++ rest) →
    (∀ e ∈ rest, (heads e.aggregate).getD (0, zeroHash) = (aggregateHeadOf pre e.aggregate).pair) →
    (∀ id ∈ seen, id ∈ pre.map (·.eventId.val)) →
    ∃ integrity, verifyFrom sha total heads (tenantHeadOf pre).cursor (tenantHeadOf pre).recordHash
        seen rest = .ok integrity ∧
      (integrity.valid = true → integrity = validIntegrity total (tenantHeadOf (pre ++ rest))) ∧
      (integrity.valid = true ↔ ∀ e ∈ rest, e.schemaVersion = 1) := by
  intro rest
  induction rest with
  | nil =>
    intro pre heads seen _ _ _
    refine ⟨validIntegrity total (tenantHeadOf pre), rfl, fun _ => ?_, by simp [validIntegrity]⟩
    rw [List.append_nil]
  | cons e rest ih =>
    intro pre heads seen hchain hheads hseen
    obtain ⟨-, hext⟩ := hchain pre e rest rfl
    obtain ⟨d, hrec, hseal⟩ := hext.sealed
    obtain ⟨d', hd', hmaterial⟩ := draft_of_records sha hrec
    have hexpected : e.recordHash = sealOf sha e d' (aggregateHeadOf pre e.aggregate).recordHash
        (tenantHeadOf pre).recordHash := by
      rw [hmaterial, ← hext.aggregatePrevious, ← hext.tenantPrevious]; exact hseal
    have hfresh : e.eventId.val ∉ seen := fun hmem => hext.fresh (hseen _ hmem)
    have hhead := hheads e List.mem_cons_self
    by_cases hschema : e.schemaVersion = 1
    · have hnone : failureAt sha e d' (aggregateHeadOf pre e.aggregate).pair
          (tenantHeadOf pre).cursor (tenantHeadOf pre).recordHash seen = none :=
        integrityFailure_none.mpr ⟨hschema, hfresh, hext.sequence, hext.cursor,
          hext.aggregatePrevious, hext.tenantPrevious, hexpected⟩
      have hnext := ih (pre ++ [e])
        (Function.update heads e.aggregate (some (e.aggregateSequence, e.recordHash)))
        (insert e.eventId.val seen) (by rw [List.append_assoc]; exact hchain) (by
          intro e' he'
          by_cases hkey : e'.aggregate = e.aggregate
          · rw [hkey, Function.update_self, aggregateHeadOf_concat_self]; rfl
          · rw [Function.update_of_ne hkey, hheads e' (List.mem_cons_of_mem _ he'),
              aggregateHeadOf, aggregateHeadOf, aggregateEvents_concat_ne pre (Ne.symm hkey)])
        (by
          intro id hid
          rw [List.map_append, List.mem_append, List.map_singleton, List.mem_singleton]
          rcases Finset.mem_insert.mp hid with rfl | hid
          · exact Or.inr rfl
          · exact Or.inl (hseen id hid))
      rw [tenantHeadOf_concat, List.append_assoc] at hnext
      obtain ⟨integrity, hok, hform, hall⟩ := hnext
      refine ⟨integrity, ?_, hform, ?_⟩
      · rw [verifyFrom_cons hd' hhead, hnone]; exact hok
      rw [hall, List.forall_mem_cons]
      exact ⟨fun h => ⟨hschema, h⟩, fun h => h.2⟩
    · have hsome : failureAt sha e d' (aggregateHeadOf pre e.aggregate).pair
          (tenantHeadOf pre).cursor (tenantHeadOf pre).recordHash seen ≠ none :=
        fun h => hschema (integrityFailure_none.mp h).1
      obtain ⟨failure, hfailure⟩ := Option.ne_none_iff_exists'.mp hsome
      rw [verifyFrom_cons hd' hhead, hfailure]
      refine ⟨_, rfl, fun h => (by cases h), ?_⟩
      exact ⟨fun h => (by cases h), fun h => absurd (h e List.mem_cons_self) hschema⟩

/-- The anchors of a window are the heads of the events before it. -/
theorem windowAnchors_heads {t : String} {pre window : List ApplicationEvent}
    (hchain : Chain sha t (pre ++ window)) {e : ApplicationEvent} (he : e ∈ window) :
    (windowAnchors window e.aggregate).getD (0, zeroHash)
      = (aggregateHeadOf pre e.aggregate).pair := by
  have hfound : (window.find? fun a => decide (a.aggregate = e.aggregate)).isSome := by
    rw [List.find?_isSome]
    exact ⟨e, he, by simp⟩
  obtain ⟨first, hfirst⟩ := Option.isSome_iff_exists.mp hfound
  obtain ⟨hkey, before, after, hsplit, hnone⟩ := List.find?_eq_some_iff_append.mp hfirst
  have hkey : first.aggregate = e.aggregate := of_decide_eq_true hkey
  obtain ⟨-, hext⟩ := hchain (pre ++ before) first after (by rw [hsplit, List.append_assoc])
  have hsame : aggregateHeadOf (pre ++ before) e.aggregate = aggregateHeadOf pre e.aggregate := by
    have hnil : before.filter (fun a => decide (a.aggregate = e.aggregate)) = [] := by
      refine List.filter_eq_nil_iff.mpr fun a ha => ?_
      have := hnone a ha
      simpa using this
    rw [aggregateHeadOf, aggregateHeadOf, aggregateEvents, List.filter_append, hnil,
      List.append_nil]; rfl
  rw [windowAnchors, hfirst]
  show (first.aggregateSequence - 1, first.aggregatePreviousHash) = _
  rw [hext.sequence, hext.aggregatePrevious, hkey, hsame]
  rfl

/-! ## Projection and causal chain of a window -/

theorem runEvents_cons_other {e : ApplicationEvent} {events : List ApplicationEvent} {r : String}
    (h : e.aggregateType.val ≠ "investigation" ∨ e.aggregateId.val ≠ r) :
    runEvents (e :: events) r = runEvents events r := by
  refine List.filter_cons_of_neg ?_
  simp only [Bool.and_eq_true, beq_iff_eq, not_and_or]
  exact h

theorem runEvents_cons_own {e : ApplicationEvent} {events : List ApplicationEvent} {r : String}
    (h : ¬(e.aggregateType.val ≠ "investigation" ∨ e.aggregateId.val ≠ r)) :
    runEvents (e :: events) r = e :: runEvents events r := by
  push Not at h
  refine List.filter_cons_of_pos ?_
  simp only [Bool.and_eq_true, beq_iff_eq]
  exact h

/-- `state_at` without a cursor folds the events of the run. -/
theorem stateLoop_fold {r : String} :
    ∀ (events : List ApplicationEvent) (state result : Option RunView)
      (last : Option ApplicationEvent), foldRun state (runEvents events r) = .ok result →
    ∃ last', stateLoop r none state last events = .ok (result, last') := by
  intro events
  induction events with
  | nil =>
    intro state result last h
    cases h
    exact ⟨last, rfl⟩
  | cons e events ih =>
    intro state result last h
    rw [stateLoop, if_neg (by simp)]
    by_cases hother : e.aggregateType.val ≠ "investigation" ∨ e.aggregateId.val ≠ r
    · rw [if_pos hother]
      rw [runEvents_cons_other hother] at h
      exact ih state result last h
    · rw [if_neg hother]
      rw [runEvents_cons_own hother, foldRun] at h
      obtain ⟨run, hrun, h⟩ := except_bind_ok.mp h
      rw [hrun]
      exact ih (some run) result (some e) h

/-- The causal chain of events that can be projected. -/
theorem causalLoop_fold {r : String} (known : List String) :
    ∀ (events : List ApplicationEvent) (state result : Option RunView),
    foldRun state (runEvents events r) = .ok result →
    ∃ items, causalLoop r known state events = .ok items := by
  intro events
  induction events with
  | nil => intro state result _; exact ⟨[], rfl⟩
  | cons e events ih =>
    intro state result h
    rw [causalLoop]
    by_cases hother : e.aggregateType.val ≠ "investigation" ∨ e.aggregateId.val ≠ r
    · rw [if_pos hother]
      rw [runEvents_cons_other hother] at h
      exact ih state result h
    · rw [if_neg hother]
      rw [runEvents_cons_own hother, foldRun] at h
      obtain ⟨run, hrun, h⟩ := except_bind_ok.mp h
      obtain ⟨items, hitems⟩ := ih (some run) result h
      rw [hrun]
      show ∃ all, (causalLoop r known (some run) events >>= _) = Except.ok all
      rw [hitems]
      exact ⟨_, rfl⟩

/-- The difference of a projection that matches. -/
def noDifference (sha : Sha256) (live : Option RunView) : ProjectionDifference :=
  { isMatch := true, liveDigest := digestModel sha live, replayDigest := digestModel sha live,
    differingFields := [] }

/-- A debugger whose events project onto the live run finds no difference. -/
theorem compare_matches {d : ReplayDebugger} {r : String} {live : Option RunView}
    (h : foldRun none (runEvents d.events r) = .ok live) :
    d.compare sha r live none = .ok (noDifference sha live) := by
  obtain ⟨last, hstate⟩ := stateLoop_fold d.events none live none h
  have hpoint : ∃ point, d.stateAt sha r none = .ok point ∧ point.state = live := by
    unfold ReplayDebugger.stateAt
    rw [if_neg (by simp)]
    show ∃ point, (stateLoop r none none none d.events >>= _) = Except.ok point ∧ _
    rw [hstate]
    exact ⟨_, rfl, rfl⟩
  obtain ⟨point, hok, hlive⟩ := hpoint
  unfold ReplayDebugger.compare
  rw [hok]
  show Except.ok _ = _
  rw [hlive]
  have hnil : ∀ keys : List String, keys.filter (fun key =>
      dump (memberAt (modelValue live) key) != dump (memberAt (modelValue live) key)) = [] := by
    intro keys
    refine List.filter_eq_nil_iff.mpr fun key _ => ?_
    simp
  rw [hnil]
  rfl

/-! ## The size of a report -/

theorem length_dumpStr_of_plain {s : String} (h : ∀ c ∈ s.toList, escapeChar c = [c]) :
    (dumpStr s).length = s.length + 2 := by
  have hplain : ∀ cs : List Char, (∀ c ∈ cs, escapeChar c = [c]) → cs.flatMap escapeChar = cs := by
    intro cs
    induction cs with
    | nil => intro _; rfl
    | cons c cs ih =>
      intro h
      rw [List.flatMap_cons, h c List.mem_cons_self, ih fun d hd => h d (List.mem_cons_of_mem _ hd)]
      rfl
  rw [dumpStr, hplain _ h, List.length_cons, List.length_append, List.length_singleton,
    String.length_toList]

/-- A quotation mark is not plain. -/
example : (dumpStr "run").length = 5 ∧ (dumpStr "a\"b").length = 6 := by decide +kernel

/-- A quoted digest has 66 characters. -/
theorem length_dumpStr_digest (d : Digest) : (dumpStr d.val).length = 66 := by
  have hd := d.property
  simp only [isDigest, Bool.and_eq_true, decide_eq_true_eq] at hd
  have hhex : ∀ n : Fin 128, hexChar (Char.ofNat n) = true →
      escapeChar (Char.ofNat n) = [Char.ofNat n] := by decide +kernel
  rw [length_dumpStr_of_plain, ← String.length_toList, hd.1]
  intro c hc
  have hc := List.all_eq_true.mp hd.2 c hc
  have hsmall : c.toNat < 128 := by
    simp only [hexChar, Bool.or_eq_true, Bool.and_eq_true, decide_eq_true_eq] at hc
    rcases hc with hc | hc
    · simp only [Char.isDigit, Bool.and_eq_true, decide_eq_true_eq] at hc
      exact lt_of_le_of_lt (UInt32.le_iff_toNat_le.mp hc.2) (by decide)
    · omega
  have h := hhex ⟨c.toNat, hsmall⟩
  rw [show Char.ofNat (⟨c.toNat, hsmall⟩ : Fin 128).val = c from Char.ofNat_toNat c] at h
  exact h hc

theorem length_dump_nat (n : Nat) : (dump (.int (n : Int))).length = n.repr.length := by
  rw [dump]
  exact String.length_toList

/-- A cursor of at most 30,000 digits, which a report of `maxReportBytes` has room for. -/
def Printable (cursor : Nat) : Prop := cursor.repr.length ≤ 30000

/-- A valid report without causal items is below its bound, for every printable cursor. -/
theorem report_fits {total : Nat} {head : TenantHead} (live : Option RunView) (truncated : Bool)
    (htotal : total ≤ maxReplayEvents) (hcursor : Printable head.cursor) :
    reportSize (validIntegrity total head) (noDifference sha live) truncated []
      ≤ maxReportBytes := by
  have h1 : (dump (.int (total : Int))).length ≤ 5 := by
    rw [length_dump_nat, Nat.length_repr_le_iff (by decide)]
    exact lt_of_le_of_lt htotal (by decide)
  have h2 : (dump (.int (head.cursor : Int))).length ≤ 30000 := by
    rw [length_dump_nat]; exact hcursor
  have h3 := length_dumpStr_digest head.recordHash
  have h4 := length_dumpStr_digest (digestModel sha live)
  have hbool : (dump (.bool truncated)).length ≤ 5 := by
    cases truncated with
    | true => decide
    | false => decide
  have hstr : ∀ s : String, (dump (.str s)).length = (dumpStr s).length := fun s => by rw [dump]
  have hkeys : ((["integrity", "projection", "causal_chain", "truncated", "completeness_code",
      "valid", "event_count", "last_cursor", "last_hash", "failure_code", "matches", "live_digest",
      "replay_digest", "differing_fields"].map fun k => (dumpStr k).length).sum) = 180 := by
    decide +kernel
  rw [reportSize, length_canonicalChars, reportMaterial, length_dump_obj (by simp)]
  simp only [fieldsWidth, List.map_cons, List.map_nil, List.sum_cons, List.sum_nil,
    ReplayIntegrity.modelDump, ProjectionDifference.modelDump, validIntegrity, noDifference,
    Option.elim] at hkeys ⊢
  rw [length_dump_obj (by simp), length_dump_obj (by simp)]
  simp only [fieldsWidth, List.map_cons, List.map_nil, List.sum_cons, List.sum_nil, hstr, h3, h4]
  have hnull : (dump .null).length = 4 := by decide
  have htrue : (dump (.bool true)).length = 4 := by decide
  have hempty : (dump (.arr [])).length = 2 := by decide
  rw [hnull, htrue, hempty]
  have hbound : maxReportBytes = 32768 := rfl
  omega

/-- What is left after dropping fits, unless nothing is left. -/
theorem fitChain_fits (size : Bool → List CausalItem → Nat) (bound : Nat) (chain : List CausalItem)
    (hempty : ∀ truncated, size truncated [] ≤ bound) :
    ∀ (n : Nat) (truncated : Bool), size (fitChain size bound chain n truncated).2
      (fitChain size bound chain n truncated).1 ≤ bound := by
  intro n
  induction n with
  | zero => intro truncated; exact hempty truncated
  | succ n ih =>
    intro truncated
    rw [fitChain]
    by_cases hlarge : bound < size truncated (chain.take (n + 1))
    · rw [if_pos hlarge]; exact ih true
    · rw [if_neg hlarge]; exact not_lt.mp hlarge

/-! ## The report of a run of a reachable store -/

/-- The events of the tenant from the first to the last event of a run. -/
def replayWindow (s : Store) (t r : String) : List ApplicationEvent :=
  match (runEvents (s.events t) r).head?, (runEvents (s.events t) r).getLast? with
  | some first, some last => (s.events t).filter fun e =>
      decide (first.tenantCursor ≤ e.tenantCursor) && decide (e.tenantCursor ≤ last.tenantCursor)
  | _, _ => []

/-- The run reports its last event. -/
theorem foldRun_last {events : List ApplicationEvent} {run : RunView}
    (h : foldRun none events = .ok (some run)) :
    ∃ last, events.getLast? = some last ∧ run.lastCursor = last.tenantCursor := by
  rcases List.eq_nil_or_concat events with rfl | ⟨init, last, rfl⟩
  · cases h
  · rw [List.concat_eq_append, foldRun_append] at h
    obtain ⟨before, -, h⟩ := except_bind_ok.mp h
    rw [foldRun] at h
    obtain ⟨run', hrun', h⟩ := except_bind_ok.mp h
    cases h
    exact ⟨last, by simp, (reduceRun_position hrun').2.1⟩

/-- What the window of a run looks like: it lies inside the ledger and holds the run. -/
structure WindowOf (s : Store) (t r : String) (first : ApplicationEvent) (lastCursor : Nat)
    (pre window : List ApplicationEvent) : Prop where
  isWindow : replayWindow s t r = window
  collected : window = eventsBetween (s.events t) (first.tenantCursor - 1) lastCursor
  inside : ∃ post, s.events t = pre ++ window ++ post
  starts : window.head? = some first
  ends : ∃ last, window.getLast? = some last ∧ last.tenantCursor = lastCursor
  run : runEvents window r = runEvents (s.events t) r
  seed : ∃ rest, runEvents (s.events t) r = first :: rest

/-- The first item in an increasing list that has no key below it. -/
theorem head_of_least {items : List ApplicationEvent} {first : ApplicationEvent}
    (hinc : Pages.Increasing (·.tenantCursor) items) (hmem : first ∈ items)
    (hleast : ∀ e ∈ items, first.tenantCursor ≤ e.tenantCursor) : items.head? = some first := by
  obtain ⟨before, after, rfl⟩ := List.append_of_mem hmem
  cases before with
  | nil => rfl
  | cons a before =>
    obtain ⟨-, -, hcross⟩ := List.pairwise_append.mp hinc
    have hlt : a.tenantCursor < first.tenantCursor :=
      hcross a List.mem_cons_self first List.mem_cons_self
    have hle := hleast a (by simp)
    omega

/-- The last item in an increasing list that has no key above it. -/
theorem last_of_greatest {items : List ApplicationEvent} {last : ApplicationEvent}
    (hinc : Pages.Increasing (·.tenantCursor) items) (hmem : last ∈ items)
    (hgreatest : ∀ e ∈ items, e.tenantCursor ≤ last.tenantCursor) :
    items.getLast? = some last := by
  obtain ⟨before, after, rfl⟩ := List.append_of_mem hmem
  cases after with
  | nil => simp
  | cons a after =>
    obtain ⟨-, htail, -⟩ := List.pairwise_append.mp hinc
    have hlt : last.tenantCursor < a.tenantCursor :=
      (List.pairwise_cons.mp htail).1 a List.mem_cons_self
    have hle := hgreatest a (by simp)
    omega

/-- Every run of a reachable store has its window. -/
theorem window_of_run (hinv : LedgerInvariant sha s) {t r : String} {live : RunView}
    (hlive : s.runs (t, r) = some live) :
    ∃ first pre window, WindowOf s t r first live.lastCursor pre window := by
  have hinc := (hinv.chain t).increasing
  have hfold : foldRun none (runEvents (s.events t) r) = .ok (some live) := by
    rw [hinv.runs, hlive]
  obtain ⟨last, hlast, hcursor⟩ := foldRun_last hfold
  have hruninc : Pages.Increasing (·.tenantCursor) (runEvents (s.events t) r) :=
    hinc.sublist List.filter_sublist
  cases hrun : runEvents (s.events t) r with
  | nil => rw [hrun] at hlast; cases hlast
  | cons first rest =>
    have hfirst : first ∈ runEvents (s.events t) r := by rw [hrun]; exact List.mem_cons_self
    have hlastmem : last ∈ runEvents (s.events t) r := List.mem_of_getLast? hlast
    -- every event of the run lies between its first and its last one
    have hlow : ∀ e ∈ runEvents (s.events t) r, first.tenantCursor ≤ e.tenantCursor := by
      intro e he
      rw [hrun] at he hruninc
      rcases List.mem_cons.mp he with rfl | he
      · exact le_refl _
      · exact le_of_lt ((List.pairwise_cons.mp hruninc).1 e he)
    have hhigh : ∀ e ∈ runEvents (s.events t) r, e.tenantCursor ≤ live.lastCursor := by
      intro e he
      obtain ⟨init, hinit⟩ := List.getLast?_eq_some_iff.mp hlast
      rw [hinit] at he hruninc
      rw [hcursor]
      rcases List.mem_append.mp he with he | he
      · obtain ⟨-, -, hcross⟩ := List.pairwise_append.mp hruninc
        exact le_of_lt (hcross e he last (List.mem_singleton.mpr rfl))
      · rw [List.mem_singleton.mp he]
    have hpos := first.cursor_ok
    have hbetween : eventsBetween (s.events t) (first.tenantCursor - 1) live.lastCursor
        = (s.events t).filter fun e => decide (first.tenantCursor ≤ e.tenantCursor)
          && decide (e.tenantCursor ≤ live.lastCursor) := by
      rw [eventsBetween, Pages.after, List.filter_filter]
      refine List.filter_congr fun e _ => ?_
      rw [Bool.eq_iff_iff]
      simp only [Bool.and_eq_true, decide_eq_true_eq]
      omega
    have hin : ∀ e ∈ runEvents (s.events t) r,
        e ∈ eventsBetween (s.events t) (first.tenantCursor - 1) live.lastCursor := by
      intro e he
      rw [hbetween]
      refine List.mem_filter.mpr ⟨(List.mem_filter.mp he).1, ?_⟩
      simp only [Bool.and_eq_true, decide_eq_true_eq]
      exact ⟨hlow e he, hhigh e he⟩
    have hwininc : Pages.Increasing (·.tenantCursor)
        (eventsBetween (s.events t) (first.tenantCursor - 1) live.lastCursor) := by
      rw [hbetween]; exact hinc.sublist List.filter_sublist
    refine ⟨first, (s.events t).filter fun e => decide (e.tenantCursor ≤ first.tenantCursor - 1),
      eventsBetween (s.events t) (first.tenantCursor - 1) live.lastCursor,
      { isWindow := ?_, collected := rfl, inside := ?_, starts := ?_, ends := ?_, run := ?_,
        seed := ⟨rest, hrun⟩ }⟩
    · rw [replayWindow, hlast, hrun, hbetween, hcursor]; rfl
    · refine ⟨Pages.after (·.tenantCursor) live.lastCursor
        (Pages.after (·.tenantCursor) (first.tenantCursor - 1) (s.events t)), ?_⟩
      rw [List.append_assoc, eventsBetween, ← (hinc.after _).cut live.lastCursor]
      exact hinc.cut (first.tenantCursor - 1)
    · refine head_of_least hwininc (hin first hfirst) fun e he => ?_
      rw [hbetween] at he
      have := (List.mem_filter.mp he).2
      simp only [Bool.and_eq_true, decide_eq_true_eq] at this
      exact this.1
    · refine ⟨last, last_of_greatest hwininc (hin last hlastmem) fun e he => ?_, hcursor.symm⟩
      rw [hbetween] at he
      have := (List.mem_filter.mp he).2
      simp only [Bool.and_eq_true, decide_eq_true_eq] at this
      exact hcursor ▸ this.2
    · rw [hbetween, runEvents, List.filter_filter]
      refine List.filter_congr fun e he => ?_
      rw [Bool.eq_iff_iff, Bool.and_eq_true]
      refine ⟨fun h => h.1, fun h => ⟨h, ?_⟩⟩
      have hmem : e ∈ runEvents (s.events t) r := List.mem_filter.mpr ⟨he, h⟩
      simp only [Bool.and_eq_true, decide_eq_true_eq]
      exact ⟨hlow e hmem, hhigh e hmem⟩

/-- The bounds of a report: at most `maxReplayEvents` events in the window, and a last cursor that
    can be printed in `maxReportBytes`. -/
def WindowFits (s : Store) (t r : String) (live : RunView) : Prop :=
  (replayWindow s t r).length ≤ maxReplayEvents ∧ Printable live.lastCursor

/-- A report whose integrity is valid and whose projection matches the live run. -/
def ReportAgrees (sha : Sha256) (live : RunView) (result : Except Error (Option SupportReport)) :
    Prop :=
  ∃ report, result = .ok (some report) ∧ report.integrity.valid = true ∧
    report.projection = some (noDifference sha (some live))

section Report

variable {d : ReplayDebugger} {r : String} {live : RunView} {maximumEvents : Int}

/-- The report of a debugger whose chain can be verified and projected. -/
theorem supportReport_valid {total : Nat} {head : TenantHead} (hmaximum : 1 ≤ maximumEvents)
    (hverify : d.verify sha = .ok (validIntegrity total head))
    (hfold : foldRun none (runEvents d.events r) = .ok (some live))
    (htotal : total ≤ maxReplayEvents) (hcursor : Printable head.cursor) :
    ReportAgrees sha live
      ((d.supportReport sha r (some live) maximumEvents maxReportBytes).map some) := by
  obtain ⟨items, hitems⟩ := causalLoop_fold (d.events.map (·.eventId.val)) d.events none _ hfold
  have hchain : d.causalChain r (min maximumEvents 500)
      = .ok (items.take (min maximumEvents 500).toNat) := by
    unfold ReplayDebugger.causalChain
    rw [if_neg (by omega), hitems]; rfl
  have hfit : ∀ chain truncated, ∃ report, fittedReport sha (validIntegrity total head)
      (noDifference sha (some live)) chain truncated maxReportBytes = .ok report ∧
      report.integrity.valid = true ∧
      report.projection = some (noDifference sha (some live)) := by
    intro chain truncated
    have hsize := fitChain_fits (reportSize (validIntegrity total head)
      (noDifference sha (some live))) maxReportBytes chain
      (fun truncated => report_fits (some live) truncated htotal hcursor) chain.length truncated
    unfold fittedReport
    simp only [if_neg (not_lt.mpr hsize)]
    exact ⟨_, rfl, rfl, rfl⟩
  have hreport : ∃ chain truncated, d.supportReport sha r (some live) maximumEvents maxReportBytes
      = fittedReport sha (validIntegrity total head) (noDifference sha (some live)) chain truncated
          maxReportBytes := by
    refine ⟨items.take (min maximumEvents 500).toNat,
      decide ((items.take (min maximumEvents 500).toNat).length < (runEvents d.events r).length), ?_⟩
    unfold ReplayDebugger.supportReport
    rw [if_neg (by decide), hverify]
    show (d.causalChain r (min maximumEvents 500) >>= _) = _
    rw [hchain]
    show (d.compare sha r (some live) none >>= _) = _
    rw [compare_matches hfold]
    exact pure_bind (m := Except Error) _ _
  obtain ⟨chain, truncated, hreport⟩ := hreport
  obtain ⟨report, hok, hvalid, hprojection⟩ := hfit chain truncated
  exact ⟨report, by rw [hreport, hok]; rfl, hvalid, hprojection⟩

/-- The report of a debugger whose chain cannot be verified. -/
theorem supportReport_invalid {integrity : ReplayIntegrity}
    (hverify : d.verify sha = .ok integrity) (hvalid : integrity.valid = false) :
    ¬ReportAgrees sha live
      ((d.supportReport sha r (some live) maximumEvents maxReportBytes).map some) := by
  have hreport : d.supportReport sha r (some live) maximumEvents maxReportBytes
      = .ok (failedReport sha integrity) := by
    unfold ReplayDebugger.supportReport
    rw [if_neg (by decide), hverify]
    exact if_pos hvalid
  rw [hreport]
  rintro ⟨report, hok, htrue, -⟩
  obtain rfl : failedReport sha integrity = report := Option.some.inj (Except.ok.inj hok)
  exact absurd (hvalid.symm.trans htrue) (by decide)

/-- The debugger of a window, anchored at the events before it. -/
def windowDebugger (pre window : List ApplicationEvent) : ReplayDebugger where
  events := window
  tenantAnchorCursor := (tenantHeadOf pre).cursor
  tenantAnchorHash := (tenantHeadOf pre).recordHash
  aggregateAnchors := windowAnchors window

/-- `replay_report` reads the whole window and reports on its debugger. -/
theorem replayReport_window (maximumEvents : Int) (hinv : LedgerInvariant sha s)
    {authorize : IdentityContext → Except Error Unit} {identity : IdentityContext}
    (hallowed : authorize identity = .ok ())
    (hlive : s.runs (identity.tenantId.val, r) = some live) {first : ApplicationEvent}
    {pre window : List ApplicationEvent}
    (hw : WindowOf s identity.tenantId.val r first live.lastCursor pre window)
    (hsize : window.length ≤ maxReplayEvents) :
    Chain sha identity.tenantId.val (pre ++ window) ∧
    replayReport sha authorize s identity r maximumEvents
      = ((windowDebugger pre window).supportReport sha r (some live) maximumEvents
          maxReportBytes).map some := by
  have hchain := hinv.chain identity.tenantId.val
  obtain ⟨post, hinside⟩ := hw.inside
  obtain ⟨last, hlast, hlastcursor⟩ := hw.ends
  obtain ⟨rest, hseed⟩ := hw.seed
  have hwchain : Chain sha identity.tenantId.val (pre ++ window) := by
    rw [hinside] at hchain; exact hchain.init
  refine ⟨hwchain, ?_⟩
  have hpage : s.eventPage identity.tenantId.val (some "investigation") (some r) 0 1
      = .ok [first] := by
    unfold Store.eventPage
    have hsame : ((s.events identity.tenantId.val).filter fun e => decide (0 < e.tenantCursor)
        && ofAggregate (some "investigation") (some r) e)
        = runEvents (s.events identity.tenantId.val) r := by
      refine List.filter_congr fun e _ => ?_
      have hpos : 0 < e.tenantCursor := e.cursor_ok
      simp only [ofAggregate, Option.all_some, decide_eq_true hpos, Bool.true_and]
    rw [if_neg (by omega), hsame, hseed]; rfl
  have hcollect : collectWindow s identity.tenantId.val live.lastCursor maxReplayEvents []
      (first.tenantCursor - 1) = .ok window := by
    rw [collectWindow_all hchain maxReplayEvents [] (first.tenantCursor - 1), ← hw.collected,
      List.nil_append]
    · rw [← hw.collected]; exact hsize
    · rw [← hw.collected, List.length_nil, Nat.zero_add]; exact hsize
  obtain ⟨tail, htail⟩ : ∃ tail, window = first :: tail := by
    obtain ⟨tail, htail⟩ := List.head?_eq_some_iff.mp hw.starts
    exact ⟨tail, htail⟩
  obtain ⟨-, hfirst⟩ := hwchain pre first tail (by rw [htail])
  have hmake : ReplayDebugger.make window (first.tenantCursor - 1) first.tenantPreviousHash
      (windowAnchors window) = .ok (windowDebugger pre window) := by
    rw [hfirst.cursor, hfirst.tenantPrevious, Nat.add_sub_cancel]
    refine make_ok hsize (t := identity.tenantId.val) (fun e he => ?_) ?_
    · exact hwchain.tenant (List.mem_append_right _ he)
    · have hinc := hwchain.increasing.sublist (List.sublist_append_right pre window)
      exact List.Pairwise.imp (fun h => le_of_lt h) hinc
  unfold replayReport
  rw [hallowed]
  show (match s.runs (identity.tenantId.val, r) with | none => _ | some _ => _) = _
  rw [hlive]
  show (s.eventPage identity.tenantId.val (some "investigation") (some r) 0 1 >>= _) = _
  rw [hpage]
  show (collectWindow s identity.tenantId.val live.lastCursor maxReplayEvents []
    (first.tenantCursor - 1) >>= _) = _
  rw [hcollect]
  show (match window.head?, window.getLast? with | some _, some _ => _ | _, _ => _) = _
  rw [hw.starts, hlast]
  show (if _ then _ else (ReplayDebugger.make window (first.tenantCursor - 1)
    first.tenantPreviousHash (windowAnchors window) >>= _)) = _
  rw [if_neg (by omega), hmake]
  show ((windowDebugger pre window).supportReport sha r (some live) maximumEvents maxReportBytes
    >>= _) = _
  cases (windowDebugger pre window).supportReport sha r (some live) maximumEvents maxReportBytes with
  | ok report => rfl
  | error error => rfl

/-- **The report of a run of a reachable store** agrees with the live run exactly when no event of
    its window has another schema version than 1. -/
theorem replayReport_agrees (hinv : LedgerInvariant sha s)
    {authorize : IdentityContext → Except Error Unit} {identity : IdentityContext}
    (hallowed : authorize identity = .ok ()) (hmaximum : 1 ≤ maximumEvents)
    (hlive : s.runs (identity.tenantId.val, r) = some live)
    (hfits : WindowFits s identity.tenantId.val r live) :
    ReportAgrees sha live (replayReport sha authorize s identity r maximumEvents) ↔
      ∀ e ∈ replayWindow s identity.tenantId.val r, e.schemaVersion = 1 := by
  obtain ⟨hsize, hcursor⟩ := hfits
  obtain ⟨first, pre, window, hw⟩ := window_of_run hinv hlive
  rw [hw.isWindow] at hsize ⊢
  obtain ⟨hchain, hreport⟩ := replayReport_window maximumEvents hinv hallowed hlive hw hsize
  obtain ⟨integrity, hverify, hform, hall⟩ := verifyFrom_chain window.length window pre
    (windowAnchors window) ∅ hchain (fun e he => windowAnchors_heads hchain he) (by simp)
  have hverify : (windowDebugger pre window).verify sha = .ok integrity := hverify
  rw [← hall, hreport]
  constructor
  · intro hagrees
    by_contra hno
    exact supportReport_invalid hverify (Bool.eq_false_iff.mpr hno) hagrees
  · intro hvalid
    rw [hform hvalid] at hverify
    have hfold : foldRun none (runEvents window r) = .ok (some live) := by
      rw [hw.run, hinv.runs, hlive]
    obtain ⟨last, hlast, hlastcursor⟩ := hw.ends
    have hhead : Printable (tenantHeadOf (pre ++ window)).cursor := by
      have hlast' : (pre ++ window).getLast? = some last := by
        rw [List.getLast?_append, hlast]; rfl
      rw [tenantHeadOf, hlast']
      show Printable last.tenantCursor
      rw [hlastcursor]; exact hcursor
    exact supportReport_valid hmaximum hverify hfold hsize hhead

end Report

/-- **Agreement of the verifiers, and of replay with the live projection.**  On a bounded list of
    one tenant in cursor order the debugger reports a valid result exactly when the ledger's verifier
    accepts; and in every reachable store the report of a run whose window fits is valid and matches
    the live run exactly when every event of the window has schema version 1. -/
theorem replay_agrees (sha : Sha256) :
    (∀ (events : List ApplicationEvent) (t : String), events.length ≤ maxReplayEvents →
      (∀ e ∈ events, e.tenantId.val = t) → (∀ e ∈ events, e.schemaVersion = 1) →
      (events.Pairwise fun a b => a.tenantCursor ≤ b.tenantCursor) →
      ∃ d, ReplayDebugger.make events 0 zeroHash (fun _ => none) = .ok d ∧
        ((∃ integrity, d.verify sha = .ok integrity ∧ integrity.valid = true) ↔
          verifyLedger sha events = .ok true)) ∧
    ∀ (ops : List Op) (authorize : IdentityContext → Except Error Unit)
      (identity : IdentityContext) (r : String) (live : RunView) (maximumEvents : Int),
      authorize identity = .ok () → 1 ≤ maximumEvents →
      (run sha ops).runs (identity.tenantId.val, r) = some live →
      WindowFits (run sha ops) identity.tenantId.val r live →
      (ReportAgrees sha live (replayReport sha authorize (run sha ops) identity r maximumEvents) ↔
        ∀ e ∈ replayWindow (run sha ops) identity.tenantId.val r, e.schemaVersion = 1) := by
  constructor
  · intro events t hlen htenant _ horder
    refine ⟨ReplayDebugger.ofLedger events, make_ok hlen htenant horder, ?_⟩
    rw [← verify_agrees]
    cases hverify : (ReplayDebugger.ofLedger events).verify sha with
    | error error =>
      refine ⟨?_, fun h => (by cases h)⟩
      rintro ⟨integrity, h, -⟩; cases h
    | ok integrity =>
      constructor
      · rintro ⟨integrity', h, hvalid⟩
        cases h
        show Except.ok integrity.valid = _
        rw [hvalid]
      · intro h
        exact ⟨integrity, rfl, Except.ok.inj h⟩
  · intro ops authorize identity r live maximumEvents hallowed hmaximum hlive hfits
    exact replayReport_agrees (ledgerInvariant_run sha ops) hallowed hmaximum hlive hfits

def reader : IdentityContext where
  tenantId := ⟨"t", computed⟩
  issuer := ⟨"https://i", computed⟩
  subjectId := ⟨"s", computed⟩
  principalKind := .human
  roles := []
  requestId := ⟨"q", computed⟩
  traceId := ⟨"trace", computed⟩

/-- The start of run `r`, recorded after the note of `noteOp`. -/
def startedOp : Op :=
  .recordTransition "t" "r" "investigation.started" "op" "a" "q" none none ⟨0, 0⟩

theorem printable_small {n : Nat} (h : n < 10 ^ 1) : Printable n :=
  le_trans ((Nat.length_repr_le_iff (by decide)).mpr h) (by decide)

/-- The run of `startRunOp` in a ledger of its own. -/
theorem replay_agrees_started : ∃ live,
    (run Sha256.constant [startRunOp, startedOp]).runs ("t", "r") = some live ∧
    ReportAgrees Sha256.constant live (replayReport Sha256.constant (fun _ => .ok ())
      (run Sha256.constant [startRunOp, startedOp]) reader "r" 100) := by
  have hsome : ((run Sha256.constant [startRunOp, startedOp]).runs ("t", "r")).any
      (fun live => decide (live.lastCursor < 10 ^ 1)) = true := by decide +kernel
  have hwindow : (replayWindow (run Sha256.constant [startRunOp, startedOp]) "t" "r").length ≤ 10 ∧
      ∀ e ∈ replayWindow (run Sha256.constant [startRunOp, startedOp]) "t" "r",
        e.schemaVersion = 1 := by decide +kernel
  obtain ⟨live, hlive, hsmall⟩ := (Option.any_eq_true _ _).mp hsome
  refine ⟨live, hlive, ?_⟩
  refine ((replay_agrees Sha256.constant).2 [startRunOp, startedOp] (fun _ => .ok ()) reader "r"
    live 100 rfl (by decide) hlive ?_).mpr hwindow.2
  exact ⟨le_trans hwindow.1 (by decide), printable_small (of_decide_eq_true hsmall)⟩

/-- The note has schema version 2 and lies between the two events of the run: the report calls the
    ledger invalid. -/
theorem replay_refuses_schema_two : ∃ live,
    (run Sha256.constant [startRunOp, noteOp, startedOp]).runs ("t", "r") = some live ∧
    WindowFits (run Sha256.constant [startRunOp, noteOp, startedOp]) "t" "r" live ∧
    ¬ReportAgrees Sha256.constant live (replayReport Sha256.constant (fun _ => .ok ())
      (run Sha256.constant [startRunOp, noteOp, startedOp]) reader "r" 100) := by
  have hsome : ((run Sha256.constant [startRunOp, noteOp, startedOp]).runs ("t", "r")).any
      (fun live => decide (live.lastCursor < 10 ^ 1)) = true := by decide +kernel
  have hlen : (replayWindow (run Sha256.constant [startRunOp, noteOp, startedOp]) "t" "r").length
      ≤ 10 := by decide +kernel
  have hreport : (replayReport Sha256.constant (fun _ => .ok ())
      (run Sha256.constant [startRunOp, noteOp, startedOp]) reader "r" 100).toOption.any
      (fun report => report.any fun report => report.integrity.valid) = false := by decide +kernel
  obtain ⟨live, hlive, hsmall⟩ := (Option.any_eq_true _ _).mp hsome
  refine ⟨live, hlive, ⟨le_trans hlen (by decide), printable_small (of_decide_eq_true hsmall)⟩, ?_⟩
  rintro ⟨report, hok, hvalid, -⟩
  rw [hok] at hreport
  exact absurd (hreport.symm.trans hvalid) (by decide)

end Durability

end Aegis
