/-
  THE IDENTIFIERS OF WHAT IS STORED.

  An item is named after its tenant, its incident, its source and the digest of what was read, so one payload
  has one name.  `complete_page` leaves out the items whose names were stored BEFORE the page, and never looks
  at the page itself: a payload that a page brings twice is stored twice.  Where no page does that
  (`NewOnce`), all the items of a query have different names (`evidence_ids_distinct`).
-/
import Mathlib
import Aegis.Evidence.Duplicates

namespace Aegis

namespace Evidence

open Exec (Sat)
open Steps (Along)

section Names

variable {sha : Sha256} {libs : Libraries} {policy : IngestionPolicy} {query : EvidenceQuery}

/-! ## Names -/

/-- The name of what is read from a record. -/
def recordEvidenceId (sha : Sha256) (libs : Libraries) (query : EvidenceQuery) (record : ConnectorRecord) :
    Identifier :=
  stableIdentifier sha "evidence" [query.tenantId.val, query.incidentId.val, query.source.sourceId.val,
    (libs.rawDigest record.payload).val] 24

theorem normalize_id {record : ConnectorRecord} {pageNumber : Int} {retrievedAt : Datetime}
    {scanned : Scanned} {found : Option Identifier} {x : NormalizedEvidence}
    (h : normalize sha libs policy query record pageNumber retrievedAt scanned found = .ok x) :
    x.evidenceId = recordEvidenceId sha libs query record := by
  unfold normalize at h
  obtain ⟨retentionRef, -, h⟩ := except_bind_ok.mp h
  split at h
  · cases h
  · obtain ⟨facts, -, h⟩ := except_bind_ok.mp h
    split at h
    · cases h
    · split at h
      · cases h
      · split at h
        · cases h
        · split at h
          · cases h
          · rw [← Except.ok.inj h]
            rfl

/-- Ingestion keeps the names of the records. -/
theorem ingestAll_ids {pageNumber : Int} {retrievedAt : Datetime} (records : List ConnectorRecord) :
    ∀ index : DuplicateIndex, Sat (ingestAll sha libs policy query pageNumber retrievedAt records) index
      (fun items _ => items.map NormalizedEvidence.evidenceId = records.map (recordEvidenceId sha libs query))
      (fun _ _ => True) := by
  induction records with
  | nil => exact fun _ => rfl
  | cons record records ih =>
    intro index
    have hone : Sat (ingest sha libs policy query record pageNumber retrievedAt) index
        (fun x _ => x.evidenceId = recordEvidenceId sha libs query record) (fun _ _ => True) := by
      refine Sat.attempt (fun _ _ => trivial) fun scanned _ => ?_
      rw [Exec.sat_bind, Exec.sat_read]
      refine Sat.attempt (fun _ _ => trivial) fun x hx => ?_
      split
      · exact normalize_id hx
      · exact normalize_id hx
    refine Sat.call hone (fun _ _ _ => trivial) fun item index' hitem => ?_
    refine Sat.call (ih index') (fun _ _ _ => trivial) fun items index'' hitems => ?_
    show _ :: _ = _ :: _
    rw [hitem, hitems]

/-! ## One page -/

/-- Whatever is there twice is known. -/
def NewOnce (known ids : List Identifier) : Prop := ids.Pairwise fun i j => i = j → i ∈ known

theorem NewOnce.perm {known ids ids' : List Identifier} (h : NewOnce known ids) (hperm : ids.Perm ids') :
    NewOnce known ids' := by
  refine (hperm.pairwise_iff ?_).mp h
  rintro i j hij rfl
  exact hij rfl

/-- **What a page adds** has new names, different ones exactly if the page brings no new name twice. -/
theorem newItems_nodup {stored items : List NormalizedEvidence}
    (hstored : (stored.map NormalizedEvidence.evidenceId).Nodup) :
    ((stored ++ newItems stored items).map NormalizedEvidence.evidenceId).Nodup ↔
      NewOnce (stored.map NormalizedEvidence.evidenceId) (items.map NormalizedEvidence.evidenceId) := by
  have hnew : ∀ i ∈ (newItems stored items).map NormalizedEvidence.evidenceId,
      i ∉ stored.map NormalizedEvidence.evidenceId := by
    intro i hi
    obtain ⟨x, hx, rfl⟩ := List.mem_map.mp hi
    have hfresh := (List.mem_filter.mp hx).2
    simpa using hfresh
  rw [List.map_append, List.nodup_append', and_iff_right hstored, and_iff_left]
  · unfold NewOnce newItems List.Nodup
    rw [List.pairwise_map, List.pairwise_map, List.pairwise_filter]
    refine List.Pairwise.iff fun {x y} => ?_
    constructor
    · intro h hsame
      by_contra hno
      exact h (by simpa using hno) (by rw [← hsame]; simpa using hno) hsame
    · intro h hx _ hsame
      have hknown := h hsame
      simp only [Bool.not_eq_true', List.contains_eq_mem, decide_eq_false_iff_not] at hx
      exact hx hknown
  · intro i hi hi'
    exact hnew i hi' hi

end Names

/-! ## Collections -/

section Collect

variable {sha : Sha256} {vault : CursorVault} {libs : Libraries} {policy : IngestionPolicy} {world : World}
  {query : EvidenceQuery} {s : Session DuplicateIndex}

/-- A page is completed that brings no payload twice, unless its name is stored already. -/
def PayloadsOnce (sha : Sha256) (libs : Libraries) : CollectCall → Session DuplicateIndex → Prop
  | .store (.completePage query _ _ _ _ _), s => ∀ ingested ∈ s.ingested.getLast?,
    NewOnce ((s.store.evidence query.key).map NormalizedEvidence.evidenceId)
      (ingested.page.records.map (recordEvidenceId sha libs query))
  | _, _ => True

/-- The items of each query have different names. -/
def Distinct (s : Session DuplicateIndex) : Prop :=
  ∀ key, ((s.store.evidence key).map NormalizedEvidence.evidenceId).Nodup

theorem Distinct.same {t : State} (hs : Distinct s) (h : SameItems s.store t) (key : Key) :
    ((t.evidence key).map NormalizedEvidence.evidenceId).Nodup := by
  rcases h.evidence key with hsame | ⟨-, hempty⟩
  · rw [hsame]
    exact hs key
  · rw [hempty]
    exact List.nodup_nil

/-- Items with the names of the page that was ingested last. -/
def Named (sha : Sha256) (libs : Libraries) (query : EvidenceQuery) (items : List NormalizedEvidence)
    (s : Session DuplicateIndex) : Prop :=
  ∃ ingested, s.ingested.getLast? = some ingested ∧
    (ingested.page.records.map (recordEvidenceId sha libs query)).Perm
      (items.map NormalizedEvidence.evidenceId)

theorem ingestFetched_named {fetched : Fetched} (hs : Distinct s) :
    Along (PayloadsOnce sha libs) Distinct
      (fun r s' => Distinct s' ∧ ∀ items, r = .ok items → Named sha libs query items s')
      (ingestFetched (ingestPage sha libs policy) query fetched) s := by
  intro _
  have hitems := @ingestAll_ids sha libs policy query fetched.pageNumber fetched.page.retrievedAt
    (fetched.page.records.insertionSort fun a b => a.recordId.val ≤ b.recordId.val) s.index
  dsimp only
  unfold ingestPage
  unfold Sat at hitems
  rcases hrun : ingestAll sha libs policy query fetched.pageNumber fetched.page.retrievedAt
    (fetched.page.records.insertionSort fun a b => a.recordId.val ≤ b.recordId.val) s.index with ⟨r, index⟩
  rw [hrun] at hitems
  cases r with
  | ok items =>
    refine ⟨hs, hs, fun items' hitems' => ?_⟩
    rw [← Except.ok.inj hitems']
    refine ⟨⟨fetched, items⟩, List.getLast?_concat, ?_⟩
    rw [show items.map NormalizedEvidence.evidenceId = _ from hitems]
    exact ((List.perm_insertionSort _ _).symm).map _
  | error e => exact ⟨hs, hs, fun items hno => by cases hno⟩

/-- Between the calls of a collection the names are different. -/
theorem distinct_loop : Loop sha vault (ingestPage sha libs policy) query (PayloadsOnce sha libs) Distinct
    (Named sha libs query) where
  idle _ _ _ _ ht hs := hs.same ht
  ticked _ _ _ h := h
  ingest _ _ hs := ingestFetched_named hs
  complete items s pageNumber operationId nextCursor occurredAt hs hitems honce := by
    obtain ⟨ingested, hlast, hperm⟩ := hitems
    have hend : ∀ t, ItemsAdded query.key items s.store t → Distinct { s with store := t } := by
      rintro t ⟨-, hsame | hadded⟩ key
      · show ((t.evidence key).map _).Nodup
        rw [hsame]
        exact hs key
      · show ((t.evidence key).map _).Nodup
        rw [hadded]
        by_cases hkey : key = query.key
        · rw [hkey, Function.update_self]
          exact (newItems_nodup (hs query.key)).mpr ((honce ingested hlast).perm hperm)
        · rw [Function.update_of_ne hkey]
          exact hs key
    exact completePage_items.mono (fun _ t ht => hend t ht) fun _ t ht => hend t ht

/-- **A collection keeps the names different**, wherever it stops. -/
theorem collect_distinct (hs : Distinct s) :
    Along (PayloadsOnce sha libs) Distinct (fun _ s' => Distinct s')
      (collect sha vault (ingestPage sha libs policy) world query) s :=
  distinct_loop.collect (fun _ h => h) fun _ =>
    request_items.mono (fun _ _ h => hs.same h.1) fun _ _ h => hs.same h

end Collect

/-- A collection of one record. -/
def onceCollections : List Collection :=
  [⟨sampleQuery, sampleWorld (recordsPage [sampleRecord (ident "a")]), 100⟩]

/-- The name of a record of the examples. -/
def sampleName : Identifier :=
  recordEvidenceId Sha256.constant sampleLibraries sampleQuery (sampleRecord (ident "a"))

end Evidence

end Aegis
