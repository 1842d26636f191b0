/-
  WHAT THE DISPOSITIONS OF A HISTORY SAY.

  An ingestor remembers the first item of a content and nothing else, so its index is a function of what it has
  returned (`index_iff`).  A disposition is decided in an order: an item is quarantined, or a duplicate, or was
  redacted, or is accepted.  So a redaction shows in the disposition of an item only if neither of the first two
  does (`dispositions`), and most redactions do not: the ones of a secret are quarantined.
-/
import Mathlib
import Aegis.Lib.Machine
import Aegis.Evidence.Unique

namespace Aegis

namespace Evidence

open Exec (Sat)

/-! ## Histories -/

/-- A call of `ingest`, and what the configured scanners answer to it. -/
structure IngestCall where
  query : EvidenceQuery
  record : ConnectorRecord
  pageNumber : Int
  retrievedAt : Datetime
  scanners : List (String → Except Error (List ScannerFinding))

section

variable (sha : Sha256) (libs : Libraries) (policy : IngestionPolicy)

/-- One call of an ingestor with an index in memory. -/
def ingestStep (index : DuplicateIndex) (call : IngestCall) :
    Except Error NormalizedEvidence × DuplicateIndex :=
  ingest sha { libs with scanners := call.scanners } policy call.query call.record call.pageNumber
    call.retrievedAt index

/-- The history of an ingestor. -/
def ingestHistory (calls : List IngestCall) :
    List (Machine.Entry DuplicateIndex IngestCall (Except Error NormalizedEvidence)) :=
  Machine.trace (ingestStep sha libs policy) (fun _ => none) calls

end

/-- An accepted or redacted item of this place and name has been returned. -/
def FirstOf (h : List (Machine.Entry DuplicateIndex IngestCall (Except Error NormalizedEvidence)))
    (place : String × String × String) (evidenceId : Identifier) : Prop :=
  ∃ e ∈ h, ∃ x, e.result = .ok x ∧ x.usable = true ∧ x.indexed = place ∧ x.evidenceId = evidenceId

/-! ## One call -/

variable {sha : Sha256} {libs : Libraries} {policy : IngestionPolicy}

/-- The number of redactions of a normalized item, and what is left of a quarantined one. -/
theorem normalize_content {query : EvidenceQuery} {record : ConnectorRecord} {pageNumber : Int}
    {retrievedAt : Datetime} {scanned : Scanned} {found : Option Identifier} {x : NormalizedEvidence}
    (h : normalize sha libs policy query record pageNumber retrievedAt scanned found = .ok x) :
    x.redactionCount = scanned.redactionCount ∧
      (scanned.quarantine ≠ none → x.canonicalText = "" ∧ x.facts.entries = []) := by
  unfold normalize at h
  obtain ⟨retentionRef, -, h⟩ := except_bind_ok.mp h
  split at h
  · cases h
  · obtain ⟨facts, hfacts, h⟩ := except_bind_ok.mp h
    split at h
    · cases h
    · split at h
      · cases h
      · split at h
        · cases h
        · split at h
          · cases h
          · rw [← Except.ok.inj h]
            refine ⟨rfl, fun hquarantine => ⟨if_neg hquarantine, ?_⟩⟩
            unfold scannedFacts at hfacts
            rw [if_neg hquarantine] at hfacts
            rw [← Except.ok.inj hfacts]
            rfl

/-- A call that returns, by the index before it. -/
structure Disposes (index : DuplicateIndex) (x : NormalizedEvidence) : Prop where
  quarantined : x.disposition = .quarantined → x.canonicalText = "" ∧ x.facts.entries = []
  duplicate : x.disposition = .duplicate ↔ x.disposition ≠ .quarantined ∧ index x.indexed ≠ none
  redacted : x.disposition = .redacted ↔
    x.disposition ≠ .quarantined ∧ x.redactionCount ≠ 0 ∧ index x.indexed = none
  target : x.disposition = .duplicate → x.duplicateOf = index x.indexed

theorem ingest_disposes {query : EvidenceQuery} {record : ConnectorRecord} {pageNumber : Int}
    {retrievedAt : Datetime} {index : DuplicateIndex} :
    Sat (ingest sha libs policy query record pageNumber retrievedAt) index
      (fun x _ => Disposes index x) (fun _ _ => True) := by
  refine Sat.attempt (fun _ _ => trivial) fun scanned _ => ?_
  rw [Exec.sat_bind, Exec.sat_read]
  refine Sat.attempt (fun _ _ => trivial) fun x hx => ?_
  have hx' : Disposes index x := by
    obtain ⟨hplace, htarget, hdisposition⟩ := normalize_ok hx
    obtain ⟨hcount, hempty⟩ := normalize_content hx
    rw [← hplace] at htarget hdisposition
    have hquarantined : x.disposition = .quarantined ↔ scanned.quarantine ≠ none := by
      rw [hdisposition]
      exact dispose_quarantined
    by_cases hquarantine : scanned.quarantine = none
    · have hfree : x.disposition ≠ .quarantined := fun h => hquarantined.mp h hquarantine
      unfold dispose at hdisposition
      rw [if_neg (not_not.mpr hquarantine)] at hdisposition
      unfold duplicateOf at htarget hdisposition
      rw [if_pos hquarantine] at htarget hdisposition
      rw [← hcount] at hdisposition
      refine ⟨fun h => absurd h hfree, ?_, ?_, fun _ => htarget⟩
      · rw [and_iff_right hfree, hdisposition]
        split
        · exact ⟨fun _ => by assumption, fun _ => rfl⟩
        · rename_i hnone
          refine ⟨fun h => ?_, fun h => absurd h hnone⟩
          split at h <;> cases h
      · rw [and_iff_right hfree, hdisposition]
        split
        · rename_i hfound
          exact ⟨fun h => (by cases h), fun h => absurd h.2 hfound⟩
        · rename_i hnone
          split
          · rename_i hnonzero
            exact ⟨fun _ => ⟨hnonzero, not_not.mp hnone⟩, fun _ => rfl⟩
          · rename_i hzero
            exact ⟨fun h => (by cases h), fun h => absurd h.1 hzero⟩
    · have hq := hquarantined.mpr hquarantine
      refine ⟨fun _ => hempty hquarantine, ?_, ?_, fun h => ?_⟩
      · exact ⟨fun h => absurd (hq.symm.trans h) (by decide), fun h => absurd hq h.1⟩
      · exact ⟨fun h => absurd (hq.symm.trans h) (by decide), fun h => absurd hq h.1⟩
      · exact absurd (hq.symm.trans h) (by decide)
  split
  · exact hx'
  · exact hx'

/-- A call that raises remembers nothing. -/
theorem ingest_raises {query : EvidenceQuery} {record : ConnectorRecord} {pageNumber : Int}
    {retrievedAt : Datetime} {index : DuplicateIndex} :
    Sat (ingest sha libs policy query record pageNumber retrievedAt) index
      (fun _ _ => True) (fun _ index' => index' = index) := by
  refine Sat.attempt (fun _ _ => rfl) fun scanned _ => ?_
  rw [Exec.sat_bind, Exec.sat_read]
  refine Sat.attempt (fun _ _ => rfl) fun x _ => ?_
  split
  · exact trivial
  · exact trivial

/-- **One call**, all of it. -/
theorem ingestStep_cases (index : DuplicateIndex) (call : IngestCall) :
    (∃ e, (ingestStep sha libs policy index call).1 = .error e ∧
      (ingestStep sha libs policy index call).2 = index) ∨
    ∃ x, (ingestStep sha libs policy index call).1 = .ok x ∧ Disposes index x ∧
      Ingests index (ingestStep sha libs policy index call).2 x := by
  have hrun : Sat (ingest sha { libs with scanners := call.scanners } policy call.query call.record
      call.pageNumber call.retrievedAt) index
      (fun x index' => (Ingests index index' x ∧ Disposes index x) ∧ True)
      (fun _ index' => (True ∧ True) ∧ index' = index) :=
    (ingest_ingests.and ingest_disposes).and ingest_raises
  unfold Sat at hrun
  unfold ingestStep
  rcases hx : ingest sha { libs with scanners := call.scanners } policy call.query call.record call.pageNumber
    call.retrievedAt index with ⟨r, index'⟩
  rw [hx] at hrun
  cases r with
  | error e => exact .inl ⟨e, rfl, hrun.2⟩
  | ok x => exact .inr ⟨x, rfl, hrun.1.2, hrun.1.1⟩

/-! ## The index -/

/-- **The index is what has been returned**: the accepted and redacted items, by their places. -/
theorem index_iff (calls : List IngestCall) : ∀ place evidenceId,
    Machine.final (ingestStep sha libs policy) (fun _ => none) calls place = some evidenceId ↔
      FirstOf (ingestHistory sha libs policy calls) place evidenceId := by
  refine Machine.history_induction (I := fun h index => ∀ place evidenceId,
    index place = some evidenceId ↔ FirstOf h place evidenceId) ?_ ?_ calls
  · intro place evidenceId
    refine ⟨fun h => (by cases h), ?_⟩
    rintro ⟨e, he, -⟩
    cases he
  · intro h index call hindex place evidenceId
    -- what has been returned, before the call or by it
    have hfirst : FirstOf (h ++ [Machine.entry (ingestStep sha libs policy) index call]) place evidenceId ↔
        FirstOf h place evidenceId ∨ ∃ x, (ingestStep sha libs policy index call).1 = .ok x ∧
          x.usable = true ∧ x.indexed = place ∧ x.evidenceId = evidenceId := by
      constructor
      · rintro ⟨e, he, hrest⟩
        rcases List.mem_append.mp he with he | he
        · exact .inl ⟨e, he, hrest⟩
        · rw [List.mem_singleton.mp he] at hrest
          exact .inr hrest
      · rintro (⟨e, he, hrest⟩ | hrest)
        · exact ⟨e, List.mem_append_left _ he, hrest⟩
        · exact ⟨_, List.mem_append_right _ List.mem_cons_self, hrest⟩
    rw [hfirst, ← hindex place evidenceId]
    rcases @ingestStep_cases sha libs policy index call with
      ⟨e, hresult, hsame⟩ | ⟨x, hresult, -, hx⟩
    · rw [hsame, hresult]
      exact ⟨.inl, fun h => h.elim id fun ⟨x, hx, _⟩ => (by cases hx)⟩
    · rw [hresult]
      cases husable : x.usable with
      | false =>
        rw [hx.other husable]
        refine ⟨.inl, fun h => h.elim id ?_⟩
        rintro ⟨y, hy, husable', -⟩
        rw [← Except.ok.inj hy, husable] at husable'
        cases husable'
      | true =>
        obtain ⟨hnone, hnext⟩ := hx.usable husable
        rw [hnext]
        by_cases hplace : place = x.indexed
        · subst hplace
          rw [Function.update_self, hnone]
          constructor
          · intro hid
            exact .inr ⟨x, rfl, husable, rfl, Option.some.inj hid⟩
          · rintro (hno | ⟨y, hy, -, -, hid⟩)
            · cases hno
            · rw [Except.ok.inj hy, hid]
        · rw [Function.update_of_ne hplace]
          refine ⟨.inl, fun h => h.elim id ?_⟩
          rintro ⟨y, hy, -, hy', -⟩
          rw [← Except.ok.inj hy] at hy'
          exact absurd hy'.symm hplace

/-- **Every history**: an item is accepted or redacted only where none of its content has been, a duplicate
    names the one that has been, and exactly the first of its content that is neither quarantined nor a duplicate
    and has redactions is redacted.  What is quarantined is empty, and the calls after it go on as without it. -/
theorem dispositions (sha : Sha256) (libs : Libraries) (policy : IngestionPolicy) (calls : List IngestCall)
    (pre post : List (Machine.Entry DuplicateIndex IngestCall (Except Error NormalizedEvidence)))
    (e : Machine.Entry DuplicateIndex IngestCall (Except Error NormalizedEvidence)) (x : NormalizedEvidence)
    (hcall : ingestHistory sha libs policy calls = pre ++ e :: post) (hx : e.result = .ok x) :
    (x.disposition = .accepted ∨ x.disposition = .redacted → ¬∃ i, FirstOf pre x.indexed i) ∧
    (x.disposition = .duplicate → ∃ i, x.duplicateOf = some i ∧ FirstOf pre x.indexed i) ∧
    (x.disposition = .redacted ↔
      x.disposition ≠ .quarantined ∧ x.redactionCount ≠ 0 ∧ ¬∃ i, FirstOf pre x.indexed i) ∧
    (x.disposition = .quarantined →
      (x.canonicalText = "" ∧ x.facts.entries = [] ∧ x.quarantineReason ≠ none ∧ x.duplicateOf = none) ∧
      ingestHistory sha libs policy ((pre ++ post).map (·.op)) = pre ++ post) := by
  obtain ⟨xs, ys, hcalls, hpre, he, hpost⟩ := Machine.trace_split hcall
  have hindex := @index_iff sha libs policy xs
  generalize hbefore : Machine.final (ingestStep sha libs policy) (fun _ => none) xs = index at he hindex
  have hfirst : (∃ i, FirstOf pre x.indexed i) ↔ index x.indexed ≠ none := by
    rw [Option.ne_none_iff_exists', hpre]
    exact exists_congr fun i => (hindex x.indexed i).symm
  have hresult : (ingestStep sha libs policy index e.op).1 = .ok x := by
    rw [he] at hx
    exact hx
  rcases @ingestStep_cases sha libs policy index e.op with
    ⟨_, herror, -⟩ | ⟨y, hy, hdisposes, hingests⟩
  · rw [hresult] at herror
    cases herror
  obtain rfl : x = y := Except.ok.inj (hresult.symm.trans hy)
  refine ⟨fun husable => ?_, fun hduplicate => ?_, ?_, fun hquarantined => ⟨⟨?_, ?_, ?_, ?_⟩, ?_⟩⟩
  · rw [hfirst, not_not]
    exact (hingests.usable (usable_iff.mpr husable)).1
  · obtain ⟨i, hi⟩ := Option.ne_none_iff_exists'.mp (x.duplicate_ok.mp hduplicate)
    refine ⟨i, hi, ?_⟩
    rw [hpre]
    exact (hindex x.indexed i).mp ((hdisposes.target hduplicate).symm.trans hi)
  · rw [hfirst, not_not]
    exact hdisposes.redacted
  · exact (hdisposes.quarantined hquarantined).1
  · exact (hdisposes.quarantined hquarantined).2
  · exact x.quarantine_ok.mp hquarantined
  · by_contra hno
    exact absurd (hquarantined.symm.trans (x.duplicate_ok.mpr hno)) (by decide)
  · -- a quarantined item is not remembered
    have hunusable : x.usable = false := by
      refine Bool.eq_false_iff.mpr fun husable => ?_
      rcases usable_iff.mp husable with h | h
      · exact absurd (hquarantined.symm.trans h) (by decide)
      · exact absurd (hquarantined.symm.trans h) (by decide)
    have hafter : e.after = index := by
      rw [he]
      exact hingests.other hunusable
    rw [List.map_append, hpost, hpre, Machine.trace_map_op, Machine.trace_map_op, hafter]
    unfold ingestHistory
    rw [Machine.trace_append, hbefore]

/-- A call of the examples. -/
def sampleCall (payload : List UInt8) : IngestCall where
  query := sampleQuery
  record := { sampleRecord (ident "a") with payload }
  pageNumber := 1
  retrievedAt := ⟨1, 0⟩
  scanners := []

/-- The disposition of what a call returns, and its redactions. -/
def disposed (r : Except Error NormalizedEvidence) : Option (EvidenceDisposition × Nat) :=
  r.toOption.map fun x => (x.disposition, x.redactionCount)

/-- One text twice: the second item is a duplicate of the first. -/
theorem dispositions_sample :
    ∃ pre e x, ingestHistory .constant sampleLibraries samplePolicy [sampleCall [120], sampleCall [120]] =
        pre ++ [e] ∧ e.result = .ok x ∧ x.disposition = .duplicate ∧
      ∃ i, x.duplicateOf = some i ∧ FirstOf pre x.indexed i := by
  obtain ⟨e₁, e₂, hhistory⟩ : ∃ e₁ e₂, ingestHistory .constant sampleLibraries samplePolicy
      [sampleCall [120], sampleCall [120]] = [e₁] ++ e₂ :: [] := ⟨_, _, rfl⟩
  have hdisposed : (ingestHistory .constant sampleLibraries samplePolicy
      [sampleCall [120], sampleCall [120]]).map (fun e => disposed e.result) =
        [some (.accepted, 0), some (.duplicate, 0)] := by decide +kernel
  rw [hhistory] at hdisposed
  have hsecond : disposed e₂.result = some (.duplicate, 0) :=
    (List.cons.inj (List.cons.inj hdisposed).2).1
  cases hx : e₂.result with
  | error e =>
    rw [hx] at hsecond
    cases hsecond
  | ok x =>
    rw [hx] at hsecond
    have hduplicate : x.disposition = .duplicate := congrArg Prod.fst (Option.some.inj hsecond)
    exact ⟨[e₁], e₂, x, hhistory, hx, hduplicate,
      (dispositions .constant sampleLibraries samplePolicy _ [e₁] [] e₂ x hhistory hx).2.1 hduplicate⟩

/-- The libraries on an assignment of a secret. -/
def secretLibraries : Libraries :=
  { sampleLibraries with
    secretPatterns :=
      [(ident "credential-assignment", ⟨fun text => if text = "password: abcdefgh" then 1 else 0,
        fun text => if text = "password: abcdefgh" then ("[REDACTED]", 1) else (text, 0)⟩)] }

/-- A secret is the first of its content and redacted, and its item is quarantined. -/
theorem redaction_quarantined :
    ∃ e x, ingestHistory .constant secretLibraries samplePolicy
        [sampleCall "password: abcdefgh".toUTF8.data.toList] = [] ++ e :: [] ∧ e.result = .ok x ∧
      x.redactionCount = 1 ∧ x.disposition = .quarantined ∧ x.disposition ≠ .redacted := by
  obtain ⟨e, hhistory⟩ : ∃ e, ingestHistory .constant secretLibraries samplePolicy
      [sampleCall "password: abcdefgh".toUTF8.data.toList] = [] ++ e :: [] := ⟨_, rfl⟩
  have hdisposed : (ingestHistory .constant secretLibraries samplePolicy
      [sampleCall "password: abcdefgh".toUTF8.data.toList]).map (fun e => disposed e.result) =
        [some (.quarantined, 1)] := by decide +kernel
  rw [hhistory] at hdisposed
  have hfirst : disposed e.result = some (.quarantined, 1) := (List.cons.inj hdisposed).1
  cases hx : e.result with
  | error _ =>
    rw [hx] at hfirst
    cases hfirst
  | ok x =>
    rw [hx] at hfirst
    obtain ⟨hquarantined, hcount⟩ := Prod.mk.inj (Option.some.inj hfirst)
    refine ⟨e, x, hhistory, hx, hcount, hquarantined, ?_⟩
    rw [hquarantined]
    decide

end Evidence

end Aegis
