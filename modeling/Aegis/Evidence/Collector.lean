/-
  COLLECTING THE EVIDENCE OF A QUERY, page after page, with a process that may stop after any call.

  `collect` begins a page, fetches it, ingests it and completes it, and follows its cursor; a page without
  one ends the loop.  A collection that is repeated finds its first page completed.  It goes on to complete
  the query if no cursor is stored, and asks for a reconciliation if one is.

  So only the collection that completed the FIRST page ever fetches another one, and what a later one reads
  off the store is this: first page completed and no cursor means that the last page was stored.  That is
  wrong in one case, when the cursor of the first page was refused after the page was marked.

  Connector, authority and clocks answer as they like (`World`); `ingest` is a parameter over a state of its
  own.
-/
import Mathlib
import Aegis.Lib.Steps
import Aegis.Evidence.Atomic

namespace Aegis

namespace Evidence

open Exec (Sat)
open Steps (Along)

/-! ## Collections -/

/-- What the authority, the clocks and the connector answer to the `n`-th call. -/
structure World where
  currentSource : Nat → Except Error (Option EvidenceSource)
  cancelled : Nat → Except Error Bool
  clock : Nat → Datetime
  storeClock : Nat → Datetime
  fetchPage : Nat → Int → Option String → Except Error ConnectorPage

/-- A page, and the number and the cursor it was fetched with. -/
structure Fetched where
  pageNumber : Int
  cursor : Option String
  page : ConnectorPage

/-- A fetched page, and what ingestion made of it. -/
structure Ingested extends Fetched where
  evidence : List NormalizedEvidence

/-- The store, the state of the ingestor, and the calls made so far.  Nothing reads the two lists: they
    remember what was fetched and what was ingested. -/
structure Session (ι : Type) where
  store : State
  index : ι
  ticks : Nat
  fetched : List Fetched
  ingested : List Ingested

/-- A session over an empty store. -/
def Session.start {ι : Type} (index : ι) : Session ι := ⟨.empty, index, 0, [], []⟩

/-- `EvidenceIngestor.ingest_page`. -/
abbrev IngestPage (ι : Type) : Type :=
  EvidenceQuery → List ConnectorRecord → Int → Datetime → Exec Error ι (List NormalizedEvidence)

/-- What a step of a collection is. -/
inductive CollectCall where
  | port
  | ingest
  | store (op : StoreOp)

/-- A body in steps between which the process may stop. -/
abbrev Program (ι α : Type) : Type := Steps CollectCall Error (Session ι) α

section Collect

variable {ι : Type} (sha : Sha256) (vault : CursorVault) (ingestPage : IngestPage ι)

/-- A call of a port. -/
def ask {α : Type} (answer : Nat → Except Error α) : Program ι α :=
  Steps.atom .port fun s => (answer s.ticks, { s with ticks := s.ticks + 1 })

/-- A call of the store. -/
def stored {α : Type} (op : StoreOp) (x : Store α) : Program ι α :=
  Steps.atom (.store op) fun s => ((x s.store).1, { s with store := (x s.store).2 })

/-- A call of the store that only reads. -/
def look {α : Type} (x : Store α) : Program ι α :=
  Steps.atom .port fun s => ((x s.store).1, { s with store := (x s.store).2 })

/-- `ingest_page` of a fetched page. -/
def ingestFetched (query : EvidenceQuery) (fetched : Fetched) : Program ι (List NormalizedEvidence) :=
  Steps.atom .ingest fun s =>
    match ingestPage query fetched.page.records fetched.pageNumber fetched.page.retrievedAt s.index with
    | (.ok evidence, index) =>
      (.ok evidence, { s with index, ingested := s.ingested ++ [⟨fetched, evidence⟩] })
    | (.error e, index) => (.error e, { s with index })

variable (world : World)

/-- `fetch_page`. -/
def fetch (pageNumber : Int) (cursor : Option String) : Program ι ConnectorPage :=
  Steps.atom .port fun s =>
    match world.fetchPage s.ticks pageNumber cursor with
    | .ok page =>
      (.ok page, { s with ticks := s.ticks + 1, fetched := s.fetched ++ [⟨pageNumber, cursor, page⟩] })
    | .error e => (.error e, { s with ticks := s.ticks + 1 })

/-- `_fail`. -/
def fail (query : EvidenceQuery) (code : String) (status : QueryStatus) (operationId : String) :
    Program ι Unit := do
  let occurredAt ← ask fun n => .ok (world.clock n)
  let _ ← stored (.failQuery query.key operationId code status occurredAt)
    (failQuery sha query.key operationId code status occurredAt)

/-- `_require_current`. -/
def requireCurrent (query : EvidenceQuery) : Program ι Unit := do
  let current ← ask world.currentSource
  if current.any (fun source =>
      decide (source.digest sha = query.source.digest sha) && source.enabled) = true then pure ()
  else do
    fail sha world query "source_policy_or_credential_stale" .stale ("stale:" ++ query.queryId.val)
    Steps.raise ⟨.connectorRejected, "evidence source policy is stale or revoked"⟩

def pageOperation (query : EvidenceQuery) (pageNumber : Int) : String :=
  "page:" ++ query.queryId.val ++ ":" ++ toString pageNumber

/-- The loop over the pages of a query. -/
def pages (query : EvidenceQuery) (remaining : Nat) (pageNumber : Int) (cursor cursorRef : Option String)
    (totalRecords totalBytes : Nat) : Program ι Unit :=
  match remaining with
  | 0 => Steps.raise ⟨.connectorRejected, "evidence query page bound was exhausted"⟩
  | remaining + 1 => do
    requireCurrent sha world query
    let cancelled ← ask world.cancelled
    if cancelled = true then do
      fail sha world query "cancelled" .cancelled
        ("cancel:" ++ query.queryId.val ++ ":" ++ toString pageNumber)
      Steps.raise ⟨.connectorRejected, "evidence query was cancelled"⟩
    else do
      let operationId := pageOperation query pageNumber
      let occurredAt ← ask fun n => .ok (world.clock n)
      let state ← stored (.beginPage query.key pageNumber operationId cursorRef occurredAt)
        (beginPage sha query.key pageNumber operationId cursorRef occurredAt)
      match state with
      | .completed => do
        let current ← look (do let s ← Exec.read; pure (s.cursors query.key).isSome)
        Steps.require (current = false) ⟨.reconciliationRequired,
          "completed evidence page cannot resume without internal cursor"⟩
      | .started => do
        let page ← fetch world pageNumber cursor
        requireCurrent sha world query
        let totalRecords := totalRecords + page.records.length
        let totalBytes := totalBytes + page.responseBytes
        Steps.require (totalRecords ≤ query.bounds.maximumRecords ∧
            totalBytes ≤ query.bounds.maximumTotalBytes)
          ⟨.connectorRejected, "evidence query aggregate bounds exceeded"⟩
        let normalized ← ingestFetched ingestPage query ⟨pageNumber, cursor, page⟩
        let occurredAt ← ask fun n => .ok (world.clock n)
        let storedCursor ← stored
          (.completePage query pageNumber operationId normalized page.nextCursor occurredAt)
          (completePage sha vault query pageNumber operationId normalized page.nextCursor occurredAt)
        match page.nextCursor with
        | none => pure ()
        | some _ =>
          match storedCursor with
          | none => Steps.raise (integrity "evidence cursor checkpoint was not committed")
          | some storedCursor => do
            let now ← ask fun n => .ok (world.storeClock n)
            let value ← look (cursorValue vault query.key storedCursor.cursorRef.val now)
            pages query remaining (pageNumber + 1) (some value) (some storedCursor.cursorRef.val)
              totalRecords totalBytes

/-- What the loop does with an exception. -/
def pagesFailed (query : EvidenceQuery) (e : Error) : Program ι Unit :=
  if e.kind = .reconciliationRequired then do
    fail sha world query "ambiguous_connector_outcome" .reconciliationRequired
      ("reconcile:" ++ query.queryId.val)
    Steps.raise e
  else if e.kind = .connectorRejected then do
    let view ← look (do let s ← Exec.read; pure (s.views query.key))
    if view.any (fun view => decide (view.status ∈
        [QueryStatus.cancelled, .reconciliationRequired, .stale])) = true then Steps.raise e
    else do
      fail sha world query "connector_result_rejected" .failed ("failure:" ++ query.queryId.val)
      Steps.raise e
  else Steps.raise e

/-- The items of a query as `evidence` lists them. -/
def storedEvidence (s : State) (key : Key) : List NormalizedEvidence := byEvidenceId (s.evidence key)

/-- `_collect`. -/
def collect (query : EvidenceQuery) : Program ι EvidenceBundle := do
  let view ← stored (.request query ("request:" ++ query.queryId.val))
    (request sha query ("request:" ++ query.queryId.val))
  if view.status = .completed then do
    let existing ← look (do let s ← Exec.read; pure (s.bundles query.key))
    match existing with
    | none => Steps.raise (integrity "completed evidence query has no stored bundle")
    | some existing => pure existing
  else do
    Steps.catching (pages sha vault ingestPage world query query.bounds.maximumPages 1 none none 0 0)
      (pagesFailed sha world query)
    let allEvidence ← look (do let s ← Exec.read; pure (storedEvidence s query.key))
    let createdAt ← ask fun n => .ok (world.clock n)
    let bundleId := stableIdentifier sha "bundle" [query.tenantId.val, query.incidentId.val,
      query.queryId.val, (canonicalDigest sha (.arr (allEvidence.map fun x =>
        .str (x.digest sha).val))).val] 32
    let bundle ← Steps.done (buildBundle sha bundleId query.tenantId query.incidentId query.runId
      query.queryId allEvidence createdAt)
    let _ ← stored (.completeQuery query ("complete:" ++ query.queryId.val) bundle createdAt)
      (completeQuery sha query ("complete:" ++ query.queryId.val) bundle createdAt)
    pure bundle

/-- A call of `collect` that stops after some steps, and what the ports answer to it. -/
structure Collection where
  query : EvidenceQuery
  world : World
  stop : Nat

/-- The steps of a collection, and the session it leaves. -/
def collectStep (s : Session ι) (c : Collection) :
    List (Steps.Mark CollectCall (Session ι)) × Session ι :=
  ((collect sha vault ingestPage c.world c.query).marksUntil c.stop s,
    (collect sha vault ingestPage c.world c.query).crashed c.stop s)

/-- The session after collections. -/
def collectRun (index : ι) (cs : List Collection) : Session ι :=
  Machine.final (collectStep sha vault ingestPage) (.start index) cs

/-- The history of collections. -/
def collectHistory (index : ι) (cs : List Collection) :
    List (Machine.Entry (Session ι) Collection (List (Steps.Mark CollectCall (Session ι)))) :=
  Machine.trace (collectStep sha vault ingestPage) (.start index) cs

end Collect

/-! ## Walking through a collection -/

section Walk

variable {ι : Type} {C : CollectCall → Session ι → Prop} {I : Session ι → Prop} {s : Session ι} {α : Type}

/-- A call of the store, through its judgment. -/
theorem along_stored {op : StoreOp} {x : Store α} {Q : α → State → Prop} {R : Error → State → Prop}
    {P : Except Error α → Session ι → Prop} (h : C (.store op) s → Sat x s.store Q R)
    (hok : ∀ a t, Q a t → I { s with store := t } ∧ P (.ok a) { s with store := t })
    (herror : ∀ e t, R e t → I { s with store := t } ∧ P (.error e) { s with store := t }) :
    Along C I P (stored op x) s := by
  intro hC
  refine (Sat.outcome (x := x) (s := s.store) (P := fun r t => I { s with store := t } ∧
    P r { s with store := t }) ?_)
  exact (h hC).mono hok herror

theorem along_look {x : Store α} {Q : α → State → Prop} {R : Error → State → Prop}
    {P : Except Error α → Session ι → Prop} (h : Sat x s.store Q R)
    (hok : ∀ a t, Q a t → I { s with store := t } ∧ P (.ok a) { s with store := t })
    (herror : ∀ e t, R e t → I { s with store := t } ∧ P (.error e) { s with store := t }) :
    Along C I P (look x) s := by
  intro _
  refine (Sat.outcome (x := x) (s := s.store) (P := fun r t => I { s with store := t } ∧
    P r { s with store := t }) ?_)
  exact h.mono hok herror

/-- A relation that ports and failures of a query stay in, and that keeps `I`. -/
structure Steady (I : Session ι → Prop) (R : Session ι → Session ι → Prop) : Prop where
  trans : ∀ s s' s'', R s s' → R s' s'' → R s s''
  keeps : ∀ s s', R s s' → I s → I s'
  ticked : ∀ (s : Session ι) (ticks : Nat), R s { s with ticks }
  failed : ∀ (sha : Sha256) (s : Session ι) (key : Key) (operationId failureCode : String)
    (status : QueryStatus) (occurredAt : Datetime),
    Sat (failQuery sha key operationId failureCode status occurredAt) s.store
      (fun _ t => R s { s with store := t }) (fun _ t => R s { s with store := t })

variable {R : Session ι → Session ι → Prop} {sha : Sha256} {world : World} {query : EvidenceQuery}

theorem Steady.ask (h : Steady I R) {answer : Nat → Except Error α} (hs : I s) :
    Along C I (fun _ s' => R s s') (ask answer) s :=
  fun _ => ⟨h.keeps _ _ (h.ticked s _) hs, h.ticked s _⟩

theorem Steady.fail (h : Steady I R) {code operationId : String} {status : QueryStatus} (hs : I s) :
    Along C I (fun _ s' => R s s') (fail sha world query code status operationId) s := by
  refine (h.ask hs).bind (fun _ _ h => h) fun occurredAt s1 h1 => ?_
  refine Along.bind (Q := fun _ s' => R s s') ?_ (fun _ _ h => h) fun _ _ h => h
  have hend : ∀ t, R s1 { s1 with store := t } → I { s1 with store := t } ∧ R s { s1 with store := t } :=
    fun t ht => ⟨h.keeps _ _ ht (h.keeps _ _ h1 hs), h.trans _ _ _ h1 ht⟩
  exact along_stored (fun _ => h.failed sha s1 query.key operationId code status occurredAt)
    (fun _ t ht => hend t ht) fun _ t ht => hend t ht

theorem Steady.requireCurrent (h : Steady I R) (hs : I s) :
    Along C I (fun _ s' => R s s') (requireCurrent sha world query) s := by
  refine (h.ask hs).bind (fun _ _ h => h) fun current s1 h1 => ?_
  split
  · exact h1
  · refine (h.fail (h.keeps _ _ h1 hs)).bind (fun _ _ h2 => h.trans _ _ _ h1 h2) fun _ s2 h2 => ?_
    exact h.trans _ _ _ h1 h2

end Walk

end Evidence

end Aegis
