/-
  DUPLICATES OF WHAT IS STORED.

  The index is written record by record, the store page by page.  An item that is remembered and whose page
  is never stored makes duplicates of nothing: `Lossless` asks that whatever is remembered is stored when
  the next page is ingested, and that a page does not bring an accepted item under an identifier that its
  query has stored already.
-/
import Mathlib
import Aegis.Evidence.Ingestion
import Aegis.Evidence.Items

namespace Aegis

namespace Evidence

open Exec (Sat)
open Steps (Along)

/-! ## What a duplicate needs -/

/-- Where an item is remembered. -/
def NormalizedEvidence.indexed (x : NormalizedEvidence) : String × String × String :=
  (x.tenantId.val, x.incidentId.val, x.contentHash.val)

/-- An accepted or redacted item of this place and identifier is stored. -/
def Backed (s : State) (place : String × String × String) (evidenceId : Identifier) : Prop :=
  ∃ key, ∃ x ∈ s.evidence key, x.evidenceId = evidenceId ∧ x.indexed = place ∧ x.usable = true

/-- The steps after which nothing that was remembered is lost. -/
def Lossless : CollectCall → Session DuplicateIndex → Prop
  | .ingest, s => ∀ place evidenceId, s.index place = some evidenceId → Backed s.store place evidenceId
  | .store (.completePage query _ _ evidence _ _), s =>
    ∀ x ∈ evidence, x.usable = true →
      x.evidenceId ∉ (s.store.evidence query.key).map NormalizedEvidence.evidenceId
  | _, _ => True

/-! ## One page -/

/-- What ingestion makes of a record, by the index before and after. -/
structure Ingests (index index' : DuplicateIndex) (x : NormalizedEvidence) : Prop where
  duplicate : x.disposition = .duplicate →
    ∃ evidenceId, index x.indexed = some evidenceId ∧ x.duplicateOf = some evidenceId
  usable : x.usable = true → index x.indexed = none ∧
    index' = Function.update index x.indexed (some x.evidenceId)
  other : x.usable = false → index' = index

section Ingest

variable {sha : Sha256} {libs : Libraries} {policy : IngestionPolicy} {query : EvidenceQuery}

/-- The fields of a normalized item that the index is about. -/
theorem normalize_ok {record : ConnectorRecord} {pageNumber : Int} {retrievedAt : Datetime}
    {scanned : Scanned} {found : Option Identifier} {x : NormalizedEvidence}
    (h : normalize sha libs policy query record pageNumber retrievedAt scanned found = .ok x) :
    x.indexed = indexKey sha query scanned ∧ x.duplicateOf = duplicateOf scanned.quarantine found ∧
      x.disposition = dispose scanned.quarantine found scanned.redactionCount := by
  unfold normalize at h
  obtain ⟨retentionRef, -, h⟩ := except_bind_ok.mp h
  split at h
  · cases h
  · obtain ⟨facts, -, h⟩ := except_bind_ok.mp h
    split at h
    · cases h
    · split at h
      · cases h
      · split at h
        · cases h
        · split at h
          · cases h
          · rw [← Except.ok.inj h]
            exact ⟨rfl, rfl, rfl⟩

theorem usable_iff {x : NormalizedEvidence} :
    x.usable = true ↔ x.disposition = .accepted ∨ x.disposition = .redacted := by
  unfold NormalizedEvidence.usable
  simp

theorem ingest_ingests {record : ConnectorRecord} {pageNumber : Int} {retrievedAt : Datetime}
    {index : DuplicateIndex} : Sat (ingest sha libs policy query record pageNumber retrievedAt) index
      (fun x index' => Ingests index index' x) (fun _ _ => True) := by
  refine Sat.attempt (fun _ _ => trivial) fun scanned _ => ?_
  rw [Exec.sat_bind, Exec.sat_read]
  refine Sat.attempt (fun _ _ => trivial) fun x hx => ?_
  obtain ⟨hplace, htarget, hdisposition⟩ := normalize_ok hx
  rw [← hplace] at htarget hdisposition ⊢
  have hduplicate : x.disposition = .duplicate →
      ∃ evidenceId, index x.indexed = some evidenceId ∧ x.duplicateOf = some evidenceId := by
    intro hdup
    have hsome := x.duplicate_ok.mp hdup
    rw [htarget] at hsome ⊢
    unfold duplicateOf at hsome ⊢
    split at hsome
    · obtain ⟨evidenceId, hfound⟩ := Option.ne_none_iff_exists'.mp hsome
      exact ⟨evidenceId, hfound, by rw [if_pos (by assumption), hfound]⟩
    · exact absurd rfl hsome
  split
  · rename_i husable
    have hnone : index x.indexed = none := by
      rcases usable_iff.mp husable with h | h <;> rw [hdisposition] at h
      all_goals
        unfold dispose duplicateOf at h
        by_contra hfound
        split at h
        · cases h
        · rename_i hquarantine
          rw [if_pos (not_not.mp hquarantine), if_pos hfound] at h
          cases h
    rw [Exec.sat_bind, Exec.sat_modify]
    refine ⟨hduplicate, fun _ => ⟨hnone, ?_⟩, fun hno => ?_⟩
    · unfold remember
      rw [hnone, Option.getD_none]
    · rw [husable] at hno
      cases hno
  · rename_i husable
    exact ⟨hduplicate, fun hno => absurd hno husable, fun _ => rfl⟩

/-- **The duplicates of a page** name an item remembered before it, or an accepted one of the page. -/
theorem ingestAll_duplicates {pageNumber : Int} {retrievedAt : Datetime} (records : List ConnectorRecord) :
    ∀ index : DuplicateIndex, Sat (ingestAll sha libs policy query pageNumber retrievedAt records) index
      (fun items _ => ∀ x ∈ items, x.disposition = .duplicate → ∃ evidenceId,
        x.duplicateOf = some evidenceId ∧ (index x.indexed = some evidenceId ∨
          ∃ y ∈ items, y.usable = true ∧ y.indexed = x.indexed ∧ y.evidenceId = evidenceId))
      (fun _ _ => True) := by
  induction records with
  | nil => exact fun index x hx => absurd hx List.not_mem_nil
  | cons record records ih =>
    intro index
    refine Sat.call ingest_ingests (fun _ _ _ => trivial) fun item index' hitem => ?_
    refine Sat.call (ih index') (fun _ _ _ => trivial) fun items index'' hitems => ?_
    intro x hx hdup
    rcases List.mem_cons.mp hx with rfl | hx
    · obtain ⟨evidenceId, hfound, htarget⟩ := hitem.duplicate hdup
      exact ⟨evidenceId, htarget, .inl hfound⟩
    · obtain ⟨evidenceId, htarget, hfound | ⟨y, hy, husable, hplace, hid⟩⟩ := hitems x hx hdup
      · refine ⟨evidenceId, htarget, ?_⟩
        cases husable : item.usable with
        | false =>
          rw [hitem.other husable] at hfound
          exact .inl hfound
        | true =>
          obtain ⟨-, hindex⟩ := hitem.usable husable
          rw [hindex] at hfound
          by_cases hplace : x.indexed = item.indexed
          · rw [hplace, Function.update_self] at hfound
            exact .inr ⟨item, List.mem_cons_self, husable, hplace.symm, Option.some.inj hfound⟩
          · rw [Function.update_of_ne hplace] at hfound
            exact .inl hfound
      · exact ⟨evidenceId, htarget, .inr ⟨y, List.mem_cons_of_mem _ hy, husable, hplace, hid⟩⟩

end Ingest

/-! ## Collections -/

/-- The duplicates of the store are backed, and items are items of known queries. -/
structure Backing (s : Session DuplicateIndex) : Prop where
  backed : ∀ key, ∀ x ∈ s.store.evidence key, x.disposition = .duplicate →
    ∃ evidenceId, x.duplicateOf = some evidenceId ∧ Backed s.store x.indexed evidenceId
  known : ∀ key, s.store.evidence key ≠ [] → s.store.queries key ≠ none

/-- Steps that change no items. -/
def Idle (s s' : Session DuplicateIndex) : Prop := SameItems s.store s'.store

theorem Idle.evidence {s s' : Session DuplicateIndex} (h : Idle s s') (hs : Backing s) :
    s'.store.evidence = s.store.evidence := by
  funext key
  rcases SameItems.evidence h key with hsame | ⟨hunknown, hempty⟩
  · exact hsame
  · have hnil : s.store.evidence key = [] := by
      by_contra hno
      exact hs.known key hno hunknown
    rw [hempty, hnil]

theorem Backed.congr {s s' : State} (h : s'.evidence = s.evidence) {place : String × String × String}
    {evidenceId : Identifier} : Backed s' place evidenceId ↔ Backed s place evidenceId := by
  unfold Backed
  rw [h]

theorem Idle.backing {s s' : Session DuplicateIndex} (h : Idle s s') (hs : Backing s) : Backing s' := by
  have hsame := h.evidence hs
  constructor
  · rw [hsame]
    intro key x hx hdup
    obtain ⟨evidenceId, htarget, hbacked⟩ := hs.backed key x hx hdup
    exact ⟨evidenceId, htarget, (Backed.congr hsame).mpr hbacked⟩
  · rw [hsame]
    exact fun key hitems => SameItems.known h key (hs.known key hitems)

/-- The duplicates of these items are backed, once the accepted ones of them are stored. -/
def Supported (items : List NormalizedEvidence) (s : Session DuplicateIndex) : Prop :=
  ∀ x ∈ items, x.disposition = .duplicate → ∃ evidenceId, x.duplicateOf = some evidenceId ∧
    (Backed s.store x.indexed evidenceId ∨
      ∃ y ∈ items, y.usable = true ∧ y.indexed = x.indexed ∧ y.evidenceId = evidenceId)

/-- **A page whose accepted items are new to its query** keeps the duplicates backed. -/
theorem ItemsAdded.backing {s : Session DuplicateIndex} {key : Key} {items : List NormalizedEvidence}
    {t : State} (h : ItemsAdded key items s.store t) (hs : Backing s) (hsupported : Supported items s)
    (hknown : s.store.queries key ≠ none)
    (hnew : ∀ x ∈ items, x.usable = true →
      x.evidenceId ∉ (s.store.evidence key).map NormalizedEvidence.evidenceId) :
    Backing { s with store := t } := by
  obtain ⟨hqueries, hsame | hadded⟩ := h
  · refine Idle.backing (s := s) ⟨fun k => .inl (congrFun hsame k), fun k hk => ?_⟩ hs
    show t.queries k ≠ none
    rwa [hqueries]
  · have hsub : ∀ k, ∀ x ∈ s.store.evidence k, x ∈ t.evidence k := by
      intro k x hx
      rw [hadded]
      by_cases hk : k = key
      · rw [hk, Function.update_self]
        exact List.mem_append_left _ (hk ▸ hx)
      · rwa [Function.update_of_ne hk]
    have hkept : ∀ {place : String × String × String} {evidenceId : Identifier},
        Backed s.store place evidenceId → Backed t place evidenceId := by
      rintro place evidenceId ⟨k, x, hx, hrest⟩
      exact ⟨k, x, hsub k x hx, hrest⟩
    constructor
    · intro k x hx hdup
      have hcases : x ∈ s.store.evidence k ∨ x ∈ items := by
        have hmem : x ∈ t.evidence k := hx
        rw [hadded] at hmem
        by_cases hk : k = key
        · rw [hk, Function.update_self] at hmem
          rcases List.mem_append.mp hmem with hold | hnewItem
          · exact .inl (hk ▸ hold)
          · exact .inr (List.mem_of_mem_filter hnewItem)
        · rw [Function.update_of_ne hk] at hmem
          exact .inl hmem
      rcases hcases with hold | hitem
      · obtain ⟨evidenceId, htarget, hbacked⟩ := hs.backed k x hold hdup
        exact ⟨evidenceId, htarget, hkept hbacked⟩
      · obtain ⟨evidenceId, htarget, hbacked | ⟨y, hy, husable, hplace, hid⟩⟩ := hsupported x hitem hdup
        · exact ⟨evidenceId, htarget, hkept hbacked⟩
        · -- the accepted item of the same page is stored with it
          refine ⟨evidenceId, htarget, key, y, ?_, hid, hplace, husable⟩
          show y ∈ t.evidence key
          rw [hadded, Function.update_self]
          refine List.mem_append_right _ (List.mem_filter.mpr ⟨hy, ?_⟩)
          have hfresh := hnew y hy husable
          simpa using hfresh
    · intro k hitems
      show t.queries k ≠ none
      rw [hqueries]
      by_cases hk : k = key
      · rwa [hk]
      · refine hs.known k fun hnil => hitems ?_
        show t.evidence k = []
        rw [hadded, Function.update_of_ne hk, hnil]

section Collect

variable {sha : Sha256} {vault : CursorVault} {libs : Libraries} {policy : IngestionPolicy} {world : World}
  {query : EvidenceQuery} {s : Session DuplicateIndex}

/-- The query of a collection is known. -/
def Knows (query : EvidenceQuery) (s : Session DuplicateIndex) : Prop :=
  Backing s ∧ s.store.queries query.key ≠ none

theorem Idle.knows {s' : Session DuplicateIndex} (h : Idle s s') (hs : Knows query s) : Knows query s' :=
  ⟨h.backing hs.1, SameItems.known h query.key hs.2⟩

/-- The items of an ingested page are supported, if nothing that was remembered is lost. -/
theorem ingestFetched_supported {fetched : Fetched} (hs : Knows query s) :
    Along Lossless (Knows query) (fun r s' => Knows query s' ∧ ∀ items, r = .ok items → Supported items s')
      (ingestFetched (ingestPage sha libs policy) query fetched) s := by
  intro hsettled
  have hitems := @ingestAll_duplicates sha libs policy query fetched.pageNumber fetched.page.retrievedAt
    (fetched.page.records.insertionSort fun a b => a.recordId.val ≤ b.recordId.val) s.index
  dsimp only
  unfold ingestPage
  unfold Sat at hitems
  rcases hrun : ingestAll sha libs policy query fetched.pageNumber fetched.page.retrievedAt
    (fetched.page.records.insertionSort fun a b => a.recordId.val ≤ b.recordId.val) s.index with ⟨r, index⟩
  rw [hrun] at hitems
  cases r with
  | ok items =>
    have hidle : Idle s { s with index, ingested := s.ingested ++ [⟨fetched, items⟩] } := .refl s.store
    refine ⟨hidle.knows hs, hidle.knows hs, fun items' hitems' => ?_⟩
    rw [← Except.ok.inj hitems']
    intro x hx hdup
    obtain ⟨evidenceId, htarget, hfound | hpage⟩ := hitems x hx hdup
    · exact ⟨evidenceId, htarget, .inl (hsettled _ _ hfound)⟩
    · exact ⟨evidenceId, htarget, .inr hpage⟩
  | error e =>
    have hidle : Idle s { s with index } := .refl s.store
    exact ⟨hidle.knows hs, hidle.knows hs, fun items hno => by cases hno⟩

/-- Between the calls of a collection the duplicates are backed and the query is known. -/
theorem backing_loop : Loop sha vault (ingestPage sha libs policy) query Lossless (Knows query) Supported where
  idle s t ticks fetched ht hs := by
    have hidle : Idle s { s with store := t, ticks, fetched } := ht
    exact hidle.knows hs
  ticked _ _ _ h := h
  ingest _ _ hs := ingestFetched_supported hs
  complete items s pageNumber operationId nextCursor occurredAt hs hitems hnew := by
    have hend : ∀ t, ItemsAdded query.key items s.store t → Knows query { s with store := t } := by
      intro t ht
      refine ⟨ht.backing hs.1 hitems hs.2 hnew, ?_⟩
      show t.queries query.key ≠ none
      rw [ht.1]
      exact hs.2
    exact completePage_items.mono (fun _ t ht => hend t ht) fun _ t ht => hend t ht

/-- **A collection keeps the duplicates backed**, wherever it stops. -/
theorem collect_backing (hs : Backing s) :
    Along Lossless Backing (fun _ s' => Backing s')
      (collect sha vault (ingestPage sha libs policy) world query) s := by
  refine backing_loop.collect (fun _ h => h.1) fun operationId => ?_
  refine request_items.mono (fun _ t h => ?_) fun _ t h => ?_
  · have hidle : Idle s { s with store := t } := h.1
    exact ⟨hidle.backing hs, h.2⟩
  · have hidle : Idle s { s with store := t } := h
    exact hidle.backing hs

end Collect

/-! ## Every run of collections -/

/-- **A stored duplicate names a stored accepted item** of its tenant, incident and content, after any
    collections of any queries -- as long as no page was lost after an item of it was remembered. -/
theorem duplicates_backed (sha : Sha256) (vault : CursorVault) (libs : Libraries) (policy : IngestionPolicy)
    (cs : List Collection)
    (hlossless : ∀ e ∈ collectHistory sha vault (ingestPage sha libs policy) (fun _ => none) cs,
      ∀ m ∈ e.result, Lossless m.label m.before)
    (key : Key) (x : NormalizedEvidence)
    (hx : x ∈ (collectRun sha vault (ingestPage sha libs policy) (fun _ => none) cs).store.evidence key)
    (hdup : x.disposition = .duplicate) :
    ∃ key', ∃ y ∈ (collectRun sha vault (ingestPage sha libs policy) (fun _ => none) cs).store.evidence key',
      x.duplicateOf = some y.evidenceId ∧ y.tenantId = x.tenantId ∧ y.incidentId = x.incidentId ∧
        y.contentHash = x.contentHash ∧ (y.disposition = .accepted ∨ y.disposition = .redacted) := by
  have hrun : Backing (collectRun sha vault (ingestPage sha libs policy) (fun _ => none) cs) := by
    refine Machine.run_invariant (I := Backing) (C := fun s c =>
      ∀ m ∈ (collectStep sha vault (ingestPage sha libs policy) s c).1, Lossless m.label m.before) ?_ cs _
      ⟨fun _ _ hno => absurd hno List.not_mem_nil, fun _ hno => absurd rfl hno⟩ ?_
    · intro s c hs hmarks
      exact (collect_backing hs).crashed hs c.stop hmarks
    · intro e he
      obtain ⟨xs, ys, hcs, hentry⟩ := Machine.trace_mem he
      have hresult := hlossless e he
      rw [hentry] at hresult ⊢
      exact hresult
  obtain ⟨evidenceId, htarget, key', y, hy, hid, hplace, husable⟩ := hrun.backed key x hx hdup
  obtain ⟨htenant, hrest⟩ := Prod.mk.inj hplace
  obtain ⟨hincident, hcontent⟩ := Prod.mk.inj hrest
  exact ⟨key', y, hy, by rw [hid]; exact htarget, Subtype.ext htenant, Subtype.ext hincident,
    Subtype.ext hcontent, usable_iff.mp husable⟩

/-! ## A page that is lost -/

/-- The libraries on the two texts of these examples: a plain "x", and an object whose only fact is an
    address after an escaped character. -/
def sampleLibraries : Libraries where
  rawDigest _ := zeroHash
  mediaType contentType := contentType
  loads text := if '@' ∈ text.toList then some (.obj [("region", .str "é@x.com")]) else none
  safeLoad _ := none
  readArchive _ := .error .malformed
  normalized text := text
  lines text := [text]
  secretPatterns := []
  piiPatterns :=
    [(ident "email", ⟨fun text => if '@' ∈ text.toList then 1 else 0,
      fun _ => ("\x7b\"region\":\"\\[REDACTED]\"\x7d", 1)⟩)]
  injectionPatterns := []
  scanners := []

def samplePolicy : IngestionPolicy where
  retentionRef := "r"
  allowedClassifications := [.internal]
  maximumTextChars := 1024
  maximumYamlNodes := 10
  quarantineInjection := true
  retention_ok := by decide
  text_ok := by decide
  nodes_ok := by decide

def sampleRecord (recordId : Identifier) : ConnectorRecord where
  recordId
  locator := "l"
  observedAt := ⟨0, 0⟩
  contentType := "text/plain"
  payload := [120]
  sourceVersion := none
  etag := none

/-- A record that is rejected: redaction leaves a backslash before a bracket. -/
def brokenRecord : ConnectorRecord :=
  { sampleRecord (ident "b") with
    contentType := "application/json"
    payload := "\x7b\"region\":\"é@x.com\"\x7d".toUTF8.data.toList }

def recordsPage (records : List ConnectorRecord) : ConnectorPage where
  queryId := ident "q"
  sourceId := ident "s"
  pageNumber := 1
  records
  nextCursor := none
  responseBytes := (records.map fun r => r.payload.length).sum
  rateLimitRemaining := none
  retrievedAt := ⟨1, 0⟩
  cursor_ok := fun cursor hcursor => by cases hcursor
  bytes_ok := le_rfl

abbrev sampleIngest : IngestPage DuplicateIndex := ingestPage Sha256.constant sampleLibraries samplePolicy

/-- A page whose second record is rejected, and another query with the text of the first. -/
def lostCollections : List Collection :=
  [⟨sampleQuery, sampleWorld (recordsPage [sampleRecord (ident "a"), brokenRecord]), 100⟩,
   ⟨{ sampleQuery with queryId := ident "q2" }, sampleWorld (recordsPage [sampleRecord (ident "a")]), 100⟩]

/-- A duplicate is stored, and no accepted item is. -/
theorem lost_page_duplicate :
    let s := (collectRun Sha256.constant sampleVault sampleIngest (fun _ => none) lostCollections).store
    (∃ x ∈ s.evidence ("t", "q2"), x.disposition = .duplicate) ∧
      ∀ key, ∀ y ∈ s.evidence key, y.disposition ≠ .accepted ∧ y.disposition ≠ .redacted := by
  intro s
  have hshape : ∃ items, s.evidence = Function.update (Function.update (Function.update (fun _ => [])
      sampleQuery.key []) ("t", "q2") []) ("t", "q2") items := ⟨_, rfl⟩
  have hitems : (s.evidence ("t", "q2")).map NormalizedEvidence.disposition = [.duplicate] := by
    decide +kernel
  have hduplicate : ∀ y ∈ s.evidence ("t", "q2"), y.disposition = .duplicate := by
    intro y hy
    have hmem := List.mem_map_of_mem (f := NormalizedEvidence.disposition) hy
    rw [hitems] at hmem
    exact List.mem_singleton.mp hmem
  constructor
  · obtain ⟨x, hx⟩ := List.exists_mem_of_ne_nil (s.evidence ("t", "q2")) fun hnil => by
      rw [hnil] at hitems
      cases hitems
    exact ⟨x, hx, hduplicate x hx⟩
  · intro key y hy
    have hkey : key = ("t", "q2") := by
      by_contra hother
      obtain ⟨items, hshape⟩ := hshape
      rw [hshape, Function.update_of_ne hother, Function.update_of_ne hother] at hy
      by_cases hfirst : key = sampleQuery.key
      · rw [hfirst, Function.update_self] at hy
        exact List.not_mem_nil hy
      · rw [Function.update_of_ne hfirst] at hy
        exact List.not_mem_nil hy
    rw [hkey] at hy
    rw [hduplicate y hy]
    exact ⟨EvidenceDisposition.noConfusion, EvidenceDisposition.noConfusion⟩

/-- Two records with one text. -/
def twiceCollections : List Collection :=
  [⟨sampleQuery, sampleWorld (recordsPage [sampleRecord (ident "a"), sampleRecord (ident "b")]), 100⟩]

def isIngest {σ : Type} (m : Steps.Mark CollectCall σ) : Bool :=
  match m.label with
  | .ingest => true
  | _ => false

/-- A page is stored where nothing is. -/
def storesFirst {ι : Type} (m : Steps.Mark CollectCall (Session ι)) : Bool :=
  match m.label with
  | .store (.completePage query _ _ _ _ _) => (m.before.store.evidence query.key).isEmpty
  | _ => true

theorem twice_backed : ∃ x ∈ (collectRun Sha256.constant sampleVault sampleIngest (fun _ => none)
      twiceCollections).store.evidence sampleQuery.key, x.disposition = .duplicate ∧
    ∃ key', ∃ y ∈ (collectRun Sha256.constant sampleVault sampleIngest (fun _ => none)
        twiceCollections).store.evidence key',
      x.duplicateOf = some y.evidenceId ∧ y.tenantId = x.tenantId ∧ y.incidentId = x.incidentId ∧
        y.contentHash = x.contentHash ∧ (y.disposition = .accepted ∨ y.disposition = .redacted) := by
  have hstored : ((collectRun Sha256.constant sampleVault sampleIngest (fun _ => none)
      twiceCollections).store.evidence sampleQuery.key).any
        (fun x => decide (x.disposition = .duplicate)) = true := by decide +kernel
  obtain ⟨x, hx, hdup⟩ := List.any_eq_true.mp hstored
  refine ⟨x, hx, of_decide_eq_true hdup, ?_⟩
  refine duplicates_backed Sha256.constant sampleVault sampleLibraries samplePolicy twiceCollections ?_ _ x hx
    (of_decide_eq_true hdup)
  -- the only ingestion starts with an empty index, and the only page with an empty store
  have hindex : ((collectHistory Sha256.constant sampleVault sampleIngest (fun _ => none)
      twiceCollections).map fun e => (e.result.filter isIngest).map fun m => m.before.index) =
        [[fun _ => none]] := by rfl
  have hempty : (collectHistory Sha256.constant sampleVault sampleIngest (fun _ => none)
      twiceCollections).all (fun e => e.result.all storesFirst) = true := by decide +kernel
  intro e he m hm
  unfold Lossless
  split
  · rename_i hlabel
    have hmem : m.before.index ∈ (e.result.filter isIngest).map fun m => m.before.index := by
      refine List.mem_map_of_mem (List.mem_filter.mpr ⟨hm, ?_⟩)
      unfold isIngest
      rw [hlabel]
    have hfirst := List.mem_map_of_mem he
      (f := fun e => (e.result.filter isIngest).map fun m => m.before.index)
    rw [hindex] at hfirst
    rw [List.mem_singleton.mp hfirst] at hmem
    intro place evidenceId hfound
    rw [List.mem_singleton.mp hmem] at hfound
    cases hfound
  · rename_i query _ _ _ _ _ hlabel
    have hmark := List.all_eq_true.mp (List.all_eq_true.mp hempty e he) m hm
    unfold storesFirst at hmark
    rw [hlabel] at hmark
    have hnil : m.before.store.evidence query.key = [] := List.isEmpty_iff.mp hmark
    intro x _ _
    rw [hnil]
    exact List.not_mem_nil
  · trivial

end Evidence

end Aegis
